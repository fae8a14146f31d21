import ScriptBridge.Bootstrap
import ScriptBridge.Capability
import ScriptBridge.Conversion
import ScriptBridge.Engine

/-! What a session does over its engine: installing a handle table, asking about it, and evaluating
expressions through the converter. -/
namespace ScriptBridge.Session

variable {σ : Type} (E : Engine σ)

open Work (tell tellAll require nextGeneration evaluate execute)

def announceInstalled : Work σ Nat := do
  let generation ← nextGeneration
  tell (.installed (← Work.session).config.tableName generation)
  return generation

/-- Installs a new table over whatever is there, and returns its generation. -/
def install : Work σ Nat := do
  let s ← Work.session
  execute E (Bootstrap.install s.config)
  announceInstalled

/-- A table is there when the presence probe is answered by `true`. -/
def isInstalled : Work σ Bool := do
  let s ← Work.session
  match ← evaluate E (Bootstrap.presence s.config) with
  | .bool b => return b
  | _ => return false

/-- Installs a table where there is none, and says whether it did. A table found by a session without
one becomes the session's own. -/
def ensureInstalled : Work σ Bool := do
  if ← isInstalled E then
    let s ← Work.session
    if s.generation = 0 then
      let generation ← nextGeneration
      tell (.adopted s.config.tableName generation)
    return false
  else
    let s ← Work.session
    if s.generation ≠ 0 then
      tell (.vanished s.config.tableName s.generation)
    execute E (Bootstrap.guarded s.config)
    let _ ← announceInstalled
    return true

/-- The number of slots of the table. -/
def tableLength : Work σ UInt64 := do
  let s ← Work.session
  require s.requireInstalled
  match ← evaluate E (Bootstrap.size s.config) with
  | .number x =>
    if x.isNonNegative then return x.toUInt64
    else throw (.conversion (.shapeMismatch "number" "number"))
  | w => throw (.conversion (.shapeMismatch "number" w.kind))

/-- The script that passes a statement's value through the converter. -/
def captureScript (s : Session) (statement : String) : String :=
  "return " ++ s.config.converterName ++ "(" ++ statement ++ ");"

/-- Evaluates a statement and converts its value. -/
def tryCapture (statement : String) : StateM (Desk σ) (Except EngineError Wire) := do
  Work.tryEvaluate E ((← get).session.captureScript statement)

/-- Runs a statement for its effect, by the operation that the configuration names. -/
def tryRunVoid (statement : String) : StateM (Desk σ) (Except EngineError Unit) := do
  match (← get).session.config.voidCalls with
  | .execute => Work.tryExecute E (statement ++ ";")
  | .evaluate => return (← Work.tryEvaluate E (statement ++ ";")).map fun _ => ()

def capture (statement : String) : Work σ Wire := do Work.orThrow (← tryCapture E statement)

def runVoid (statement : String) : Work σ Unit := do Work.orThrow (← tryRunVoid E statement)

/-- The handle of the object that an expression gives; null has none. -/
def register (expression : String) : Work σ (Option Handle) := do
  require (← Work.session).requireInstalled
  match ← capture E expression with
  | .null => return none
  | w =>
    match w.handle? with
    | some h => return some h
    | none => throw (.conversion (.shapeMismatch "reference" w.kind))

/-- The outcome of a conversion as that of an action. -/
def converted {α : Type} (c : Converted α) : Work σ α := do
  tellAll c.events
  require (c.result.mapError .conversion)

/-- The value of an expression where a shape is expected. -/
def evaluateAs (expression : String) (shape : Shape) : Work σ Native := do
  require (← Work.session).requireInstalled
  if shape.isVoid then
    runVoid E expression
    return .null
  else
    let w ← capture E expression
    converted ((← Work.session).fromWire w shape)

/-- A stand-in for the object that an expression gives; null has none. -/
def bind (c : Capability) (expression : String) : Work σ (Option (StandIn c)) := do
  match ← evaluateAs E expression (.capability c.name) with
  | .null => return none
  | .ref r => return some (.ofReference c r)
  | v => throw (.conversion (.shapeMismatch c.name v.kind))

/-- A stand-in for a slot of the current table. -/
def standIn (s : Session) (c : Capability) (h : Handle) : StandIn c :=
  .ofReference c (s.mint h c.name)

def rootStandIn (s : Session) (c : Capability) : StandIn c := s.standIn c Handle.root

end ScriptBridge.Session
