import ScriptBridge.Config.Setting
import ScriptBridge.Json.Reader
import ScriptBridge.Json.Writer

/-! Configurations as JSON documents. -/
namespace ScriptBridge

namespace Setting

mutual
/-- The setting that a JSON value stands for. A number counts only as a literal of a natural number. -/
def ofJson : Json → Setting
  | .null => .null
  | .bool b => .flag b
  | .number n => (n.toNat?.map fun k => Setting.count (UInt64.ofNat k)).getD .other
  | .text s => (s.map Setting.text).getD .other
  | .array items => .list (ofJsonItems items)
  | .object fields => .group (ofJsonFields fields)

def ofJsonItems : List Json → List Setting
  | [] => []
  | v :: rest => ofJson v :: ofJsonItems rest

def ofJsonFields : List (Option String × Json) → List (Option String × Setting)
  | [] => []
  | (k, v) :: rest => (k, ofJson v) :: ofJsonFields rest
end

/-- A choice spelled as a group has the value `null`, and no list is too long. -/
def jsonDialect : Dialect where
  isUnit
    | .null => true
    | _ => false
  surplus := false

end Setting

namespace Config

def ofJson? (text : String) : Option Config :=
  match Json.parse? text.toList with
  | some v => (Setting.ofJson v).config? Setting.jsonDialect
  | none => none

def limitJson : Option UInt64 → Json
  | none => .null
  | some n => .number (.ofNat n.toNat)

def toJson (c : Config) : Json :=
  .object [
    (some "table_name", .text c.tableName),
    (some "converter_name", .text c.converterName),
    (some "tag_property", .text c.tagProperty),
    (some "root_expression", .text c.rootExpression),
    (some "token_policy", .text c.tokenPolicy.name),
    (some "void_calls", .text c.voidCalls.name),
    (some "engine", .object [
      (some "memory_limit_bytes", limitJson c.limits.memory),
      (some "max_stack_size_bytes", limitJson c.limits.stack)]),
    (some "logging", .object [
      (some "level", .text c.logging.level.name),
      (some "log_to_console", .bool c.logging.toConsole)])]

/-- The document that a configuration is saved as. -/
def jsonText (c : Config) : String := String.ofList (c.toJson.pretty 0)

end Config
end ScriptBridge
