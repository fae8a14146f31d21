import ScriptBridge.Script.Evaluation

/-! Definitions of the global objects of a page: a script of declarations. -/
namespace ScriptBridge.Script

/-- The members of an object: values, and functions behind them. -/
structure Members where
  values : List (String × Expr)
  methods : List (String × Body)
  deriving Inhabited

/-- How the object of a definition is made. -/
inductive Blueprint where
  | value (e : Expr)
  | plain
  /-- a function with the members assigned to it -/
  | function
  | closed (c : Closure)
  /-- an object that inherits from another one, with the members assigned to it -/
  | inherits (proto : Expr)
  /-- a proxy that passes everything on to another object -/
  | forward (target : Expr)
  /-- a proxy around a plain object of its own -/
  | trapped (trap : Trap)
  /-- an object that comes with a property under the name of a tag -/
  | tagged (tag : String) (e : Expr)
  /-- an object that gets a property under the name of a tag, which keeps its attributes or has none -/
  | pinned (tag : String) (e : Expr)
  deriving Inhabited

structure Definition where
  name : String
  blueprint : Blueprint
  members : Members
  deriving Inhabited

def Members.all (m : Members) : List (String × Expr) :=
  m.values ++ m.methods.map fun p => (p.1, .function p.1 (.body p.2))

/-- The function of the language that closes objects. -/
def Closure.word : Closure → String
  | inextensible => "preventExtensions"
  | sealed => "seal"
  | frozen => "freeze"

/-- A call of a function of the language that works on objects. -/
def Expr.objectCall (f : String) (args : List Expr) : Expr := .call (.member (.name "Object") f) args

namespace Definition

/-- The expression that makes the object. -/
def expr (d : Definition) : Expr :=
  let plain := Expr.object d.members.all
  match d.blueprint with
  | .value e => e
  | .plain => plain
  | .function => .objectCall "assign" [.function "" .blank, plain]
  | .closed c => .objectCall c.word [plain]
  | .inherits proto => .objectCall "assign" [.objectCall "create" [proto], plain]
  | .forward target => .proxy target .forward
  | .trapped trap => .proxy plain trap
  | .tagged tag e => .object (d.members.all ++ [(tag, e)])
  | .pinned tag e => .objectCall "defineProperty" [plain, .constant (.text tag), .object [("value", e)]]

/-- The script of definitions. -/
def program (ds : List Definition) : Program := .statements (ds.map fun d => .declare d.name (some d.expr))

end Definition
end ScriptBridge.Script
