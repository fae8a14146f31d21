import ScriptBridge.Expression
import ScriptBridge.Session.Operations
import ScriptBridge.Typed

/-! Calls of members. A call is built, sent, converted and returned, or fails on the way; members that
ask for the identity of a reference are answered without the engine. -/
namespace ScriptBridge.Dispatch

-- Powers are those of the core library, whatever algebra is there besides.
attribute [local instance (high)] instPowNat

variable {σ : Type} (E : Engine σ)

open Work (tell tellAll require)

/-- A handle as a number: of 32 bits where it fits, and of 64 bits elsewhere. -/
def handleNumber (h : Handle) : Native :=
  if h.index < 2 ^ (31 : Nat) then .int (Int32.ofNat h.index) else .long (Int64.ofNat h.index)

/-- The answer of a member that asks for the identity of its target. -/
def identity? (target : Reference) (member : String) (args : List Native) : Option Native :=
  match args with
  | [] => if member = "getNsiId" ∨ member = "hashCode" then some (handleNumber target.handle) else none
  | [other] =>
    if member = "equals" then
      some (.bool (match other.reference? with
        | some r => r.same target
        | none => false))
    else none
  | _ => none

def enter (p : Phase) (member : String) (h : Handle) : Work σ Unit := tell (.phase p member h)

/-- Sends a statement; a call without a result gives no value back. -/
def send (statement : String) (shape : Shape) : StateM (Desk σ) (Except EngineError (Option Wire)) := do
  if shape.isVoid then return (← Session.tryRunVoid E statement).map fun _ => none
  else return (← Session.tryCapture E statement).map some

/-- Calls a member of a reference in the session at work. -/
def dispatch (target : Reference) (member : String) (args : List Native) (shape : Shape) :
    Work σ Native := do
  let h := target.handle
  enter .build member h
  match identity? target member args with
  | some v =>
    enter .return member h
    return v
  | none =>
    let s ← Work.session
    require (s.check target)
    tellAll (Expression.remarksOfAll (some s) args)
    let statement := s.call h member args
    tell (.statement statement)
    enter .send member h
    match ← send E statement shape with
    | .error e =>
      enter .fail member h
      throw (.engine e)
    | .ok none =>
      enter .return member h
      return .null
    | .ok (some w) =>
      enter .convert member h
      let v ← Session.converted ((← Work.session).fromWire w shape)
      enter .return member h
      return v

/-- A call whose failure is null. -/
def dispatchOrNull (target : Reference) (member : String) (args : List Native) (shape : Shape) :
    Work σ Native :=
  tryCatch (dispatch E target member args shape) fun e => do
    tell (.callFailed member e)
    return .null

/-- A call with a typed result. -/
def call (target : Reference) (member : String) (args : List Native) (t : ResultType) :
    Work σ t.Carrier := do
  let v ← dispatch E target member args t.shape
  require ((t.ofNative v).mapError .conversion)

end ScriptBridge.Dispatch
