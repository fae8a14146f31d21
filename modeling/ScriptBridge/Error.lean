import ScriptBridge.Handle
import ScriptBridge.Text.Quoted

/-! The causes of failure and their wording: failures of the engine, of a conversion, of a configuration,
and of a bridge operation, which wraps the others. -/
namespace ScriptBridge

open Text (decimal)

inductive EngineError where
  /-- the script threw -/
  | script (message : String)
  | disconnected
  /-- a value of this script type has no wire form -/
  | unsupported (typeName : String)
  | runtime (message : String)
  deriving DecidableEq, Repr, Inhabited

def EngineError.message : EngineError → String
  | .script m => "Script error: " ++ m
  | .disconnected => "Engine connection lost"
  | .unsupported t => "Unsupported value of type '" ++ t ++ "' returned by the engine"
  | .runtime m => "Engine runtime error: " ++ m

inductive ConversionError where
  | malformedToken (text : String)
  | shapeMismatch (expected actual : String)
  deriving DecidableEq, Repr, Inhabited

def ConversionError.message : ConversionError → String
  | .malformedToken t => "Malformed reference token: " ++ Text.quoted t
  | .shapeMismatch expected actual => "Shape mismatch: expected " ++ expected ++ ", got " ++ actual

/-- What makes a configuration unusable. -/
inductive ConfigFault where
  | notIdentifier (field value : String)
  | sameNames
  | notPath (value : String)
  | zeroLimit (field : String)
  deriving DecidableEq, Repr, Inhabited

def ConfigFault.reason : ConfigFault → String
  | .notIdentifier field value => field ++ " must be a script identifier, got " ++ Text.quoted value
  | .sameNames => "table_name and converter_name must differ"
  | .notPath value => "root_expression must be a dotted identifier path, got " ++ Text.quoted value
  | .zeroLimit field => field ++ " must be greater than zero"

def ConfigFault.message (f : ConfigFault) : String := "Config validation error: " ++ f.reason

inductive BridgeError where
  | engine (e : EngineError)
  | conversion (e : ConversionError)
  /-- the reference was minted in one generation and used in another -/
  | stale (handle : Handle) (generation current : Nat)
  | notInstalled
  | foreign (handle : Handle)
  | config (f : ConfigFault)
  deriving DecidableEq, Repr, Inhabited

def BridgeError.message : BridgeError → String
  | .engine e => "Engine error: " ++ e.message
  | .conversion e => "Conversion error: " ++ e.message
  | .stale h generation current =>
    "Stale reference to handle " ++ h.numeral ++ ": minted in session generation "
      ++ String.ofList (decimal generation) ++ ", current is " ++ String.ofList (decimal current)
  | .notInstalled => "Bridge is not installed in the script context"
  | .foreign h => "Handle " ++ h.numeral ++ " belongs to a different session"
  | .config f => "Config error: " ++ f.message

instance : Coe EngineError BridgeError := ⟨.engine⟩
instance : Coe ConversionError BridgeError := ⟨.conversion⟩

end ScriptBridge
