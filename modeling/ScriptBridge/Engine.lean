import ScriptBridge.Event
import ScriptBridge.Session

/-! Engines as the native side sees them, and actions of a session over an engine. An action changes the
session and the engine's state, leaves a trail of events and requests, and ends in a value or an error;
what it has done before an error stays done. -/
namespace ScriptBridge

/-- What an engine gives back for a request. -/
structure Reply (σ α : Type) where
  result : Except EngineError α
  state : σ
  events : List Event

/-- An engine runs a text as the body of a function, whose result it returns, or as a script. -/
structure Engine (σ : Type) where
  evaluate : String → σ → Reply σ Wire
  execute : String → σ → Reply σ Unit

/-- The engine behind a lost connection. -/
def Engine.disconnected (σ : Type) : Engine σ where
  evaluate _ state := ⟨.error .disconnected, state, []⟩
  execute _ state := ⟨.error .disconnected, state, []⟩

inductive Request where
  | evaluate (script : String)
  | execute (script : String)
  deriving DecidableEq, Repr

/-- One entry of the trail of an action. -/
inductive Mark where
  | event (e : Event)
  | request (r : Request)
  deriving DecidableEq, Repr

def Mark.event? : Mark → Option Event
  | .event e => some e
  | .request _ => none

def Mark.request? : Mark → Option Request
  | .event _ => none
  | .request r => some r

/-- A session at work over an engine of state `σ`. -/
structure Desk (σ : Type) where
  session : Session
  state : σ
  trail : List Mark

namespace Desk

variable {σ : Type}

def events (d : Desk σ) : List Event := d.trail.filterMap Mark.event?

def requests (d : Desk σ) : List Request := d.trail.filterMap Mark.request?

end Desk

abbrev Work (σ α : Type) := ExceptT BridgeError (StateM (Desk σ)) α

namespace Work

variable {σ α : Type}

def session : Work σ Session := return (← get).session

def record (marks : List Mark) : StateM (Desk σ) Unit :=
  modify fun d => { d with trail := d.trail ++ marks }

def tell (e : Event) : Work σ Unit := ExceptT.lift (record [.event e])

def tellAll (es : List Event) : Work σ Unit := ExceptT.lift (record (es.map .event))

/-- The session's next generation. -/
def nextGeneration : Work σ Nat := do
  modify fun d => { d with session := d.session.next }
  return (← get).session.generation

def require (check : Except BridgeError α) : Work σ α :=
  match check with
  | .ok x => return x
  | .error e => throw e

/-- The events of a reply come after its request. -/
def answered (r : Request) (reply : Reply σ α) (d : Desk σ) : Except EngineError α × Desk σ :=
  (reply.result,
    { d with state := reply.state, trail := d.trail ++ .request r :: reply.events.map .event })

def tryEvaluate (E : Engine σ) (script : String) : StateM (Desk σ) (Except EngineError Wire) :=
  fun d => answered (.evaluate script) (E.evaluate script d.state) d

def tryExecute (E : Engine σ) (script : String) : StateM (Desk σ) (Except EngineError Unit) :=
  fun d => answered (.execute script) (E.execute script d.state) d

def orThrow (r : Except EngineError α) : Work σ α := require (r.mapError .engine)

def evaluate (E : Engine σ) (script : String) : Work σ Wire := do orThrow (← tryEvaluate E script)

def execute (E : Engine σ) (script : String) : Work σ Unit := do orThrow (← tryExecute E script)

end Work
end ScriptBridge
