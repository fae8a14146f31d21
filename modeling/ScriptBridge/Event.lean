import ScriptBridge.Error
import ScriptBridge.Level

/-! Log events: what happened, with the level, the topic and the wording of each. -/
namespace ScriptBridge

open Text (decimal)

/-- The phases of a call. -/
inductive Phase where
  | build | send | convert | «return» | fail
  deriving DecidableEq, Repr, Inhabited

namespace Phase

def all : List Phase := [.build, .send, .convert, .return, .fail]

def name : Phase → String
  | .build => "Build"
  | .send => "Send"
  | .convert => "Convert"
  | .return => "Return"
  | .fail => "Fail"

def mark (p : Phase) : String := String.ofList (p.name.toList.map Char.toUpper)

end Phase

/-- The part of the bridge that an event comes from. -/
inductive Topic where
  | codec | config | dispatch | engine | expr | session
  deriving DecidableEq, Repr, Inhabited

def Topic.name : Topic → String
  | .codec => "bridge.codec"
  | .config => "bridge.config"
  | .dispatch => "bridge.dispatch"
  | .engine => "bridge.engine"
  | .expr => "bridge.expr"
  | .session => "bridge.session"

inductive Event where
  /-- a token was not one, and a stand-in was bound to the root handle instead -/
  | repairedToken (text : String)
  | configLoaded (file : String)
  | configDefaulted
  | phase (p : Phase) (member : String) (handle : Handle)
  | statement (text : String)
  | callFailed (member : String) (e : BridgeError)
  | probeSkipped (e : BridgeError)
  /-- a probe was answered by something other than a truth value -/
  | probeReturned (name kind : String)
  | probeFailed (name : String) (e : EngineError)
  | contextCreated
  | contextReloaded
  | raised (message : String)
  /-- a reference that the session cannot use was passed as null -/
  | unusableReference (handle : Handle)
  /-- a value without a script form was passed as null -/
  | unrepresentable (typeName : String)
  | installed (table : String) (generation : Nat)
  | adopted (table : String) (generation : Nat)
  | vanished (table : String) (generation : Nat)
  deriving DecidableEq, Repr, Inhabited

namespace Event

def level : Event → Level
  | .repairedToken _ | .unusableReference _ | .vanished .. => .warn
  | .configLoaded _ | .configDefaulted | .contextReloaded | .installed .. => .info
  | .statement _ | .callFailed .. | .probeSkipped _ | .probeReturned .. | .probeFailed .. | .contextCreated
  | .raised _ | .unrepresentable _ | .adopted .. => .debug
  | .phase .. => .trace

def topic : Event → Topic
  | .repairedToken _ => .codec
  | .configLoaded _ | .configDefaulted => .config
  | .phase .. | .statement _ | .callFailed .. | .probeSkipped _ | .probeReturned .. | .probeFailed .. =>
    .dispatch
  | .contextCreated | .contextReloaded | .raised _ => .engine
  | .unusableReference _ | .unrepresentable _ => .expr
  | .installed .. | .adopted .. | .vanished .. => .session

private def tableText (table : String) : String := "handle table '" ++ table ++ "'"

private def generationText (n : Nat) : String := "generation " ++ String.ofList (decimal n)

def message : Event → String
  | .repairedToken text =>
    "Malformed reference token " ++ Text.quoted text ++ ", binding stand-in to the root handle"
  | .configLoaded file => "Loaded config from " ++ file
  | .configDefaulted => "Using default configuration"
  | .phase p member h => p.mark ++ " " ++ member ++ "[" ++ h.numeral ++ "]"
  | .statement text => text
  | .callFailed member e => "Call to " ++ member ++ " failed, returning null: " ++ e.message
  | .probeSkipped e => "Skipping capability probe: " ++ e.message
  | .probeReturned name kind => "Probe for " ++ name ++ " returned " ++ kind
  | .probeFailed name e => "Probe for " ++ name ++ " failed: " ++ e.message
  | .contextCreated => "QuickJS context created"
  | .contextReloaded => "QuickJS context reloaded"
  | .raised m => "Script raised: " ++ m
  | .unusableReference h =>
    "Reference to handle " ++ h.numeral ++ " is not valid in this session, passing null"
  | .unrepresentable t => "No script representation for " ++ t ++ ", passing null"
  | .installed table n => "Installed " ++ tableText table ++ " (" ++ generationText n ++ ")"
  | .adopted table n => "Adopted existing " ++ tableText table ++ " (" ++ generationText n ++ ")"
  | .vanished table n =>
    "Handle table '" ++ table ++ "' vanished from the engine, references from " ++ generationText n
      ++ " are stale"

end Event
end ScriptBridge
