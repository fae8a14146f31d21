import ScriptBridge.Config.Setting
import ScriptBridge.Toml.Reader

/-! Configurations as TOML documents. -/
namespace ScriptBridge

-- Powers are those of the core library, whatever algebra is there besides.
attribute [local instance (high)] instPowNat

namespace Setting

mutual
/-- The setting that a TOML value stands for. An integer counts when it is natural and has 64 bits. -/
def ofToml : Toml → Setting
  | .text s => .text s
  | .integer n => if 0 ≤ n ∧ n < 2 ^ (64 : Nat) then .count (UInt64.ofNat n.toNat) else .other
  | .real | .moment => .other
  | .bool b => .flag b
  | .array items => .list (ofTomlItems items)
  | .table _ fields => .group (ofTomlFields fields)
  | .tables items => .list (ofTomlItems items)

def ofTomlItems : List Toml → List Setting
  | [] => []
  | v :: rest => ofToml v :: ofTomlItems rest

def ofTomlFields : List (String × Toml) → List (Option String × Setting)
  | [] => []
  | (k, v) :: rest => (some k, ofToml v) :: ofTomlFields rest
end

/-- A choice spelled as a group has an empty value, and a list may be too long. -/
def tomlDialect : Dialect where
  isUnit
    | .list [] => true
    | .group [] => true
    | _ => false
  surplus := true

end Setting

namespace Config

open ScriptBridge.Text (decimal)

def ofToml? (text : String) : Option Config :=
  match Toml.parse? text.toList with
  | some fields => (Setting.group (Setting.ofTomlFields fields)).config? Setting.tomlDialect
  | none => none

def line (key : String) (value : List Char) : List Char :=
  key.toList ++ [' ', '=', ' '] ++ value ++ ['\n']

def textLine (key value : String) : List Char := line key (Toml.writeString value.toList)

def limitLine (key : String) : Option UInt64 → List Char
  | none => []
  | some n => line key (decimal n.toNat)

/-- The document that a configuration is saved as: the fields, then the limits that are set, then what
is logged. -/
def tomlText (c : Config) : String :=
  String.ofList (
    textLine "table_name" c.tableName
      ++ textLine "converter_name" c.converterName
      ++ textLine "tag_property" c.tagProperty
      ++ textLine "root_expression" c.rootExpression
      ++ textLine "token_policy" c.tokenPolicy.name
      ++ textLine "void_calls" c.voidCalls.name
      ++ "\n[engine]\n".toList
      ++ limitLine "memory_limit_bytes" c.limits.memory
      ++ limitLine "max_stack_size_bytes" c.limits.stack
      ++ "\n[logging]\n".toList
      ++ textLine "level" c.logging.level.name
      ++ line "log_to_console" (if c.logging.toConsole then "true" else "false").toList)

end Config
end ScriptBridge
