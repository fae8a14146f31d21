import ScriptBridge.Error
import ScriptBridge.Level

/-! Configurations of a bridge, the rules they have to meet, and overrides from the environment. -/
namespace ScriptBridge

/-- What happens when a value that should be a reference is not a token. -/
inductive TokenPolicy where
  | strict | lenient
  deriving DecidableEq, Repr, Inhabited

namespace TokenPolicy

def name : TokenPolicy → String
  | .strict => "strict"
  | .lenient => "lenient"

def ofName? (s : String) : Option TokenPolicy := [strict, lenient].find? fun p => p.name == s

end TokenPolicy

/-- The engine operation that carries calls without a result. -/
inductive VoidCalls where
  | execute | evaluate
  deriving DecidableEq, Repr, Inhabited

namespace VoidCalls

def name : VoidCalls → String
  | .execute => "execute"
  | .evaluate => "evaluate"

def ofName? (s : String) : Option VoidCalls := [execute, evaluate].find? fun v => v.name == s

end VoidCalls

/-- Resource limits of an engine, in bytes. -/
structure Limits where
  memory : Option UInt64 := none
  stack : Option UInt64 := none
  deriving DecidableEq, Repr, Inhabited

structure Logging where
  level : Level := .info
  toConsole : Bool := true
  deriving DecidableEq, Repr, Inhabited

structure Config where
  tableName : String := "nsiArray"
  converterName : String := "convertNsi"
  tagProperty : String := "nsiId"
  rootExpression : String := "globalThis"
  tokenPolicy : TokenPolicy := .strict
  voidCalls : VoidCalls := .execute
  limits : Limits := {}
  logging : Logging := {}
  deriving DecidableEq, Repr, Inhabited

def isIdentifierStart (c : Char) : Bool := c.isAlpha || c == '_' || c == '$'

def isIdentifierPart (c : Char) : Bool := c.isAlphanum || c == '_' || c == '$'

/-- A script identifier of ASCII letters, digits, underscores and dollar signs. -/
def isIdentifier : List Char → Bool
  | [] => false
  | c :: rest => isIdentifierStart c && rest.all isIdentifierPart

/-- The parts of a text between the occurrences of a character; one more than there are occurrences. -/
def splitAt (c : Char) : List Char → List (List Char)
  | [] => [[]]
  | d :: rest =>
    if d = c then [] :: splitAt c rest
    else match splitAt c rest with
      | [] => [[d]]
      | part :: parts => (d :: part) :: parts

/-- Identifiers with single dots between them. -/
def isDottedPath (s : List Char) : Bool := (splitAt '.' s).all isIdentifier

namespace Limits

def fault? (l : Limits) : Option ConfigFault :=
  if l.memory = some 0 then some (.zeroLimit "memory_limit_bytes")
  else if l.stack = some 0 then some (.zeroLimit "max_stack_size_bytes")
  else none

end Limits

namespace Config

private def identifierFault? (field value : String) : Option ConfigFault :=
  if isIdentifier value.toList then none else some (.notIdentifier field value)

/-- The first rule that a configuration breaks. -/
def fault? (c : Config) : Option ConfigFault :=
  (identifierFault? "table_name" c.tableName)
    <|> (identifierFault? "converter_name" c.converterName)
    <|> (identifierFault? "tag_property" c.tagProperty)
    <|> (if c.tableName = c.converterName then some .sameNames else none)
    <|> (if isDottedPath c.rootExpression.toList then none else some (.notPath c.rootExpression))
    <|> c.limits.fault?

def validate (c : Config) : Except ConfigFault Unit :=
  match c.fault? with
  | some f => .error f
  | none => .ok ()

/-- Values that an environment sets over a configuration. A value that names no policy or level changes
nothing. -/
structure Overrides where
  tableName : Option String := none
  root : Option String := none
  tokenPolicy : Option String := none
  logLevel : Option String := none

namespace Overrides

/-- The overrides that an environment holds. -/
def ofEnvironment (value? : String → Option String) : Overrides where
  tableName := value? "SCRIPT_PROXY_TABLE_NAME"
  root := value? "SCRIPT_PROXY_ROOT"
  tokenPolicy := value? "SCRIPT_PROXY_TOKEN_POLICY"
  logLevel := value? "SCRIPT_PROXY_LOG_LEVEL"

end Overrides

def override (c : Config) (o : Overrides) : Config :=
  { c with
    tableName := o.tableName.getD c.tableName
    rootExpression := o.root.getD c.rootExpression
    tokenPolicy := (o.tokenPolicy.bind fun s => TokenPolicy.ofName? (Text.lowerAscii s)).getD c.tokenPolicy
    logging := { c.logging with level := (o.logLevel.bind Level.parse?).getD c.logging.level } }

end Config
end ScriptBridge
