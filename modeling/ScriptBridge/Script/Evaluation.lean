import ScriptBridge.Script.Call
import ScriptBridge.Script.Tree

/-! Evaluation of scripts. The names of a body are its own names and the properties of the global
object. -/
namespace ScriptBridge.Script

open Run (invoke fail)

/-- What `this` and the names of a script mean, and the arguments of the call that it is the body of. A
script at the top has no names of its own and no arguments. -/
structure Scope where
  this : Value
  names : List (String × Value)
  arguments : Option (List Value)
  deriving Repr, Inhabited

namespace Scope

/-- The top of a script. -/
def top : Scope := ⟨.object Heap.global, [], none⟩

/-- The body of a function that is called without a receiver. -/
def body : Scope := ⟨.undefined, [], some []⟩

def find? (s : Scope) (x : String) : Option Value := (s.names.find? fun v => v.1 = x).map Prod.snd

/-- The object of the arguments of a call. -/
def allocArguments (args : List Value) : Run Value :=
  Run.alloc {
    kind := .arguments
    proto := some Heap.objectProto
    elements := Run.elementsOf args
    names := [(.length, .hidden (.nat args.length))] }

/-- The value of a name, when it has one. -/
def lookup? (s : Scope) (x : String) : Run (Option Value) := do
  match s.find? x with
  | some v => return some v
  | none =>
    match s.arguments with
    | some args => if x = "arguments" then return some (← allocArguments args) else Run.global? x
    | none => Run.global? x

def lookup (s : Scope) (x : String) : Run Value := do
  match ← s.lookup? x with
  | some v => return v
  | none => Run.failUndefined x

/-- Assigns a global name, which had to be known before. The names of a body keep their values. -/
def update (s : Scope) (x : String) (known : Bool) (v : Value) : Run Unit := do
  if (s.find? x).isSome then Run.failReadOnly (.ofText x)
  else if known then Run.assign (.object Heap.global) (.ofText x) v
  else Run.failUndefined x

/-- Makes declared names known before a script runs. At the top they become global ones that stay. -/
def hoist (s : Scope) (xs : List String) : Run Scope := do
  if s.arguments.isSome then return { s with names := xs.map (·, Value.undefined) ++ s.names }
  else
    for x in xs do
      let k := Key.ofText x
      if ((← get).own? Heap.global k).isNone then
        let _ ← Run.define Heap.global k ⟨some .undefined, some true, some true, some false⟩
    return s

/-- The scope after a declared name has got its value. -/
def declare (s : Scope) (x : String) (v : Value) : Run Scope := do
  if s.arguments.isSome then return { s with names := (x, v) :: s.names }
  else
    Run.assign (.object Heap.global) (.ofText x) v
    return s

end Scope

namespace Expr

/-- Puts a member into an object that is being made. One name makes the object inherit from its value. -/
def putMember (object : Value) (x : String) (v : Value) : Run Unit := do
  match object with
  | .object a =>
    if x = "__proto__" then Run.assignProto a v
    else modify fun h => h.setObject a ((h.object a).put (.ofText x) (.plain v))
  | _ => return ()

mutual
def evaluate (s : Scope) : Expr → Run Value
  | .constant v => return v
  | .this => return s.this
  | .name x => s.lookup x
  | .array items => do Run.allocElements items.length (← evaluateItems s 0 ∅ items)
  | .hole => return .undefined
  | .object members => do
    let object ← Run.allocPlain
    evaluateMembers s object members
    return object
  | .function x code => Run.allocFunction code x (if code = .blank then 0 else 1)
  | .member base x => do Run.read (← evaluate s base) (.ofText x)
  | .index base key => do
    let b ← evaluate s base
    let k ← evaluate s key
    Run.read b (← Run.key invoke k)
  | .call (.member base x) args => do
    let this ← evaluate s base
    let f ← Run.read this (.ofText x)
    invoke f this (← evaluateAll s [] args)
  | .call (.index base key) args => do
    let this ← evaluate s base
    let k ← Run.key invoke (← evaluate s key)
    let f ← Run.read this k
    invoke f this (← evaluateAll s [] args)
  | .call callee args => do
    let f ← evaluate s callee
    invoke f .undefined (← evaluateAll s [] args)
  | .construct callee args => do
    let f ← evaluate s callee
    Run.construct invoke f (← evaluateAll s [] args)
  | .proxy target trap => do
    let f ← s.lookup "Proxy"
    let t ← evaluate s target
    if (← get).codeOf? f = some (.builtin .proxy) then Run.allocProxy t trap else Run.construct invoke f [t]
  | .not e => return .bool !(← evaluate s e).truth
  | .negate e => return .number (← Run.number invoke (← evaluate s e)).neg
  | .typeOf (.name x) => do
    let v ← s.lookup? x
    return .text ((← get).typeWord (v.getD .undefined))
  | .typeOf e => do
    let v ← evaluate s e
    return .text ((← get).typeWord v)
  | .delete (.member base x) => do Run.delete (← evaluate s base) (.ofText x)
  | .delete (.index base key) => do
    let b ← evaluate s base
    Run.delete b (← Run.key invoke (← evaluate s key))
  | .delete e => do
    let _ ← evaluate s e
    return .bool true
  | .equals expected a b => do
    let x ← evaluate s a
    let y ← evaluate s b
    return .bool (x.same y == expected)
  | .isIn key base => do
    let k ← evaluate s key
    match ← evaluate s base with
    | .object a => do
      let k ← Run.key invoke k
      return .bool ((← get).has a k)
    | _ => fail "invalid 'in' operand"
  | .both a b => do
    let x ← evaluate s a
    if x.truth then evaluate s b else return x
  | .either a b => do
    let x ← evaluate s a
    if x.truth then return x else evaluate s b
  | .assign (.name x) e => do
    let known ← s.lookup? x
    let v ← evaluate s e
    s.update x known.isSome v
    return v
  | .assign (.member base x) e => do
    let b ← evaluate s base
    let v ← evaluate s e
    Run.store invoke b (.ofText x) v
    return v
  | .assign (.index base key) e => do
    let b ← evaluate s base
    let k ← evaluate s key
    let v ← evaluate s e
    Run.store invoke b (← Run.key invoke k) v
    return v
  | .assign _ e => evaluate s e
  | .sequence a b => do
    let _ ← evaluate s a
    evaluate s b

/-- The values of expressions behind those already found, the last of which comes first. -/
def evaluateAll (s : Scope) (found : List Value) : List Expr → Run (List Value)
  | [] => return found.reverse
  | e :: rest => do
    let v ← evaluate s e
    evaluateAll s (v :: found) rest

/-- The items of an array from an index on; left out ones are passed over. -/
def evaluateItems (s : Scope) (i : Nat) (found : Std.TreeMap Nat Property) :
    List Expr → Run (Std.TreeMap Nat Property)
  | [] => return found
  | .hole :: rest => evaluateItems s (i + 1) found rest
  | e :: rest => do
    let v ← evaluate s e
    evaluateItems s (i + 1) (found.insert i (.plain v)) rest

def evaluateMembers (s : Scope) (object : Value) : List (String × Expr) → Run Unit
  | [] => return ()
  | (x, e) :: rest => do
    putMember object x (← evaluate s e)
    evaluateMembers s object rest
end

end Expr

namespace Statement

/-- Runs statements up to the first that gives a result. -/
def runAll : Scope → List Statement → Run Value
  | _, [] => return .undefined
  | s, .run e :: rest => do
    let _ ← e.evaluate s
    runAll s rest
  | _, .result none :: _ => return .undefined
  | s, .result (some e) :: _ => e.evaluate s
  | s, .throw e :: _ => do Run.raise (← e.evaluate s)
  | s, .declare x (some e) :: rest => do
    let v ← e.evaluate s
    runAll (← s.declare x v) rest
  | s, .declare _ none :: rest => runAll s rest

end Statement

namespace Installation

/-- Gives the functions of a table what they remember. -/
def complete (m : Memory) (tools : List (Tool × Value)) (h : Heap) : Heap :=
  tools.foldl (fun h t =>
    match t.2 with
    | .object f => h.setObject f { h.object f with kind := .function (.tool t.1 m) }
    | _ => h) h

/-- Makes a table and its converter, and puts both into the global object. The functions are there before
the root is evaluated. -/
def run (i : Installation) : Run Value := do
  let global ← Run.global "globalThis"
  let nothing : Memory := ⟨.undefined, .undefined, .undefined, i.tag, i.scheme⟩
  let tagger ← Run.allocFunction (.tool .tag nothing) "tag" 2
  let registrar ← Run.allocFunction (.tool .register nothing) "register" 1
  let converter ← Run.allocFunction (.tool .convert nothing) "convert" 1
  let names := [("global", global), ("table", .undefined), ("hasOwn", .undefined), ("untagged", .undefined),
    ("tag", tagger), ("register", registrar), ("convert", converter)]
  let root ← i.root.evaluate ⟨.undefined, names, some [global]⟩
  let table ← Run.allocArray [root]
  let prototype ← Run.read (← Run.global "Object") (.ofText "prototype")
  let hasOwn ← Run.read prototype (.ofText "hasOwnProperty")
  let untagged ← Run.construct invoke (← Run.global "Map") []
  let m : Memory := ⟨table, hasOwn, untagged, i.tag, i.scheme⟩
  modify (complete m [(.tag, tagger), (.register, registrar), (.convert, converter)])
  if !root.isNullish then Converter.remember invoke m root (.nat 0)
  Run.assign global (.ofText i.table) table
  Run.assign global (.ofText i.converter) converter
  return .undefined

end Installation

def Program.run (s : Scope) : Program → Run Value
  | .statements body => do Statement.runAll (← s.hoist (Statement.declared body)) body
  | .install i => i.run
  | .installUnless condition i => do
    if (← condition.evaluate s).truth then return .undefined else i.run

end ScriptBridge.Script
