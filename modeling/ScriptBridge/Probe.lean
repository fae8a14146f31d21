import ScriptBridge.Expression
import ScriptBridge.Session.Operations

/-! Probes: asking the engine which capabilities an object has. -/
namespace ScriptBridge.Probe

variable {σ : Type} (E : Engine σ)

open Work (tell tryEvaluate)

/-- The condition that a member can be called: it is there, or its property is when it is
getter-shaped. -/
def memberTest (member : String) : List Char :=
  let present (name : String) : List Char := Expression.quoted name ++ " in o".toList
  match propertyName? member with
  | some property => '(' :: present member ++ " || ".toList ++ present property ++ [')']
  | none => '(' :: present member ++ [')']

/-- The script that asks whether a slot holds an object with all these members. -/
def script (target : List Char) (members : List String) : String :=
  String.ofList (
    "var o = ".toList ++ target
      ++ "; return o !== null && o !== undefined && (typeof o === 'object' || typeof o === 'function')".toList
      ++ members.flatMap (fun m => " && ".toList ++ memberTest m)
      ++ [';'])

/-- Whether a capability is supported; every answer but `true` says no. -/
def answer (c : Capability) : Except EngineError Wire → Bool × List Event
  | .ok (.bool b) => (b, [])
  | .ok w => (false, [.probeReturned c.name w.kind])
  | .error e => (false, [.probeFailed c.name e])

/-- The names of the capabilities that an object supports, one probe after the other. -/
def probeAll (target : List Char) : List Capability → StateM (Desk σ) (List String)
  | [] => return []
  | c :: rest => do
    let (yes, events) := answer c (← tryEvaluate E (script target c.members))
    Work.record (events.map .event)
    let others ← probeAll target rest
    return if yes then c.name :: others else others

/-- The names of the registered capabilities that a reference supports. A reference that the session
cannot use supports none, and nothing is asked. -/
def supported (registry : Registry) (r : Reference) : StateM (Desk σ) (List String) := do
  let s := (← get).session
  match s.check r with
  | .error e =>
    Work.record [.event (.probeSkipped e)]
    return []
  | .ok () => probeAll E (Expression.reference s.config.tableName r.handle) registry.capabilities

end ScriptBridge.Probe
