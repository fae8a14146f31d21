import ScriptBridge.Engine
import ScriptBridge.Script.Definition
import ScriptBridge.Script.Program
import ScriptBridge.Script.Realm
import ScriptBridge.Wire

/-! The engine that runs scripts in a heap of its own. -/
namespace ScriptBridge.Embedded

-- Powers are those of the core library, whatever algebra is there besides.
attribute [local instance (high)] instPowNat

open Script

def isError (h : Heap) (a : Address) : Bool :=
  match (h.object a).kind with
  | .error => true
  | _ => false

/-- The word for the type of a value, as complaints show it. -/
def typeName (h : Heap) : Value → String
  | .undefined => "Undefined"
  | .null => "Null"
  | .bool _ => "Bool"
  | .number (.int _) => "Int"
  | .number (.float _) => "Float"
  | .string _ => "String"
  | .symbol _ => "Symbol"
  | .object a =>
    if h.isArray a then "Array"
    else match h.code? a with
      | some c => if c.constructs then "Constructor" else "Function"
      | none => if isError h a then "Exception" else "Object"

/-- The message of an error; one that is no text is not shown. -/
def errorMessage : Value → String
  | .string (.text s) => s
  | _ => "exception"

/-- The message of what was thrown. -/
def thrownMessage (h : Heap) : Thrown → String
  | .error m => errorMessage (.string m)
  | .value (.string (.text s)) => s
  | .value (.string (.broken _)) => ""
  | .value v@(.object a) =>
    if isError h a then errorMessage (h.get a (.ofText "message")) else "thrown " ++ typeName h v
  | .value v => "thrown " ++ typeName h v

/-- The bytes of the text in front of the first unit that belongs to no character, in the form that
lets such units stand. -/
def brokenAt : List Nat → Nat
  | [] => 0
  | [_] => 0
  | n :: m :: rest =>
    if Text.isLeading n && Text.isTrailing m then 4 + brokenAt rest
    else if Text.isLeading n || Text.isTrailing n then 0
    else (if n < 0x80 then 1 else if n < 0x800 then 2 else 3) + brokenAt (m :: rest)

def brokenString (units : List Nat) : EngineError :=
  .runtime ("Conversion from string failed: invalid utf-8 sequence of 1 bytes from index "
    ++ String.ofList (Text.decimal (brokenAt units)))

/-- The items of an array; a hole reads as undefined. -/
def items (h : Heap) (a : Address) : List Value := (List.range (h.length a)).map fun i => h.get a (.ofNat i)

/-- The wire form of a value, from left to right up to the first part that has none. Nothing comes back
where arrays lie deeper than the given depth. -/
def wire (h : Heap) : Nat → Value → ExceptT EngineError Option Wire
  | _, .undefined | _, .null => return .null
  | _, .bool b => return .bool b
  | _, .number x => return .number x.toDouble
  | _, .string (.text s) => return .text s
  | _, .string (.broken us) => throw (brokenString us)
  | _, v@(.symbol _) => throw (.unsupported (typeName h v))
  | depth, v@(.object a) =>
    if h.isArray a then
      match depth with
      | 0 => ExceptT.mk none
      | depth + 1 => do return .array (← (items h a).mapM (wire h depth))
    else throw (.unsupported (typeName h v))

/-- The wire form of a value. Arrays without cycles are nested at most as deep as there are objects;
reading one that contains itself would never end. -/
def toWire (h : Heap) (v : Value) : Except EngineError Wire :=
  match (wire h h.objects.size v).run with
  | some r => r
  | none => .error (.runtime "stack overflow")

/-- The number of bytes in front of the first null character. -/
def nullAt? : List Char → Option Nat
  | [] => none
  | c :: rest => if c.toNat = 0 then some 0 else (nullAt? rest).map (c.utf8Size + ·)

def nullFault (position : Nat) : EngineError :=
  .runtime ("String contained internal null bytes: nul byte found in provided data at position: "
    ++ String.ofList (Text.decimal position))

/-- The text that makes a script the body of a function which is called at once. -/
def wrap (script : List Char) : List Char :=
  "(function () \x7b\n".toList ++ script ++ "\n\x7d)()".toList

def raised {α : Type} (h : Heap) (message : String) : Reply Heap α :=
  ⟨.error (.script message), h, [.raised message]⟩

/-- Runs an action of the script side, and hands out its result. -/
def reply {α β : Type} (h : Heap) (a : Run α) (result : Heap → α → Except EngineError β) : Reply Heap β :=
  match a.run h with
  | (.ok x, h) => ⟨result h x, h, []⟩
  | (.error t, h) => raised h (thrownMessage h t)

/-- Runs a program, when its text is one. -/
def launch {β : Type} (text : List Char) (program : Except SyntaxFault Program) (scope : Scope)
    (result : Heap → Value → Except EngineError β) (h : Heap) : Reply Heap β :=
  match nullAt? text with
  | some n => ⟨.error (nullFault n), h, []⟩
  | none =>
    match program with
    | .error f => raised h f.message
    | .ok p => reply h (p.run scope) result

def engine : Engine Heap where
  evaluate script := launch (wrap script.toList) (Program.ofBody script.toList) .body toWire
  execute script := launch script.toList (Program.ofScript script.toList) .top fun _ _ => .ok ()

/-- Makes the objects of definitions, in order, up to the first that throws. -/
def define (ds : List Definition) (h : Heap) : Reply Heap Unit :=
  reply h ((Definition.program ds).run .top) fun _ _ => .ok ()

/-- The memory without which no context can be made. -/
def contextBytes : Nat := 2 ^ (16 : Nat)

/-- A new engine, when the limits leave room for its context. -/
def create (l : Limits) : Except EngineError (Heap × List Event) :=
  if l.memory.any fun n => decide (n.toNat < contextBytes) then
    .error (.runtime "Allocation failed while creating object")
  else .ok (.initial, [.contextCreated])

/-- A fresh context in place of the old one. -/
def reload (_ : Heap) : Reply Heap Unit := ⟨.ok (), .initial, [.contextReloaded]⟩

end ScriptBridge.Embedded
