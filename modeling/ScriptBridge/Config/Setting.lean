import ScriptBridge.Config

/-! Configurations as trees of settings, which is what documents of every format come down to. Unknown
names are passed over, missing ones keep their defaults, and a group may be given as the list of its
values in order. -/
namespace ScriptBridge

inductive Setting where
  | null
  | flag (b : Bool)
  | count (n : UInt64)
  | text (s : String)
  | list (items : List Setting)
  /-- a name is `none` when the document spells one that is not a text -/
  | group (fields : List (Option String × Setting))
  /-- a value that no setting takes -/
  | other
  deriving Inhabited

namespace Setting

/-- Where the formats differ. -/
structure Dialect where
  /-- what may stand as the value of a choice spelled as a group of one field -/
  isUnit : Setting → Bool
  /-- a list may hold more values than the group has fields -/
  surplus : Bool

/-- The values of a group for the given names, in their order; `none` when a name is repeated. -/
def fieldValues? (names : List String) (fields : List (Option String × Setting)) :
    Option (List (Option Setting)) :=
  if fields.any fun f => f.1.isNone then none
  else names.mapM fun name =>
    match fields.filter fun f => f.1 == some name with
    | [] => some none
    | [(_, v)] => some (some v)
    | _ => none

/-- The values for the given names from a group or from a list. -/
def values? (d : Dialect) (names : List String) : Setting → Option (List (Option Setting))
  | .group fields => fieldValues? names fields
  | .list items =>
    if items.length ≤ names.length then
      some (items.map some ++ List.replicate (names.length - items.length) none)
    else if d.surplus then some ((items.take names.length).map some)
    else none
  | _ => none

def flag? : Setting → Option Bool
  | .flag b => some b
  | _ => none

def text? : Setting → Option String
  | .text s => some s
  | _ => none

def limit? : Setting → Option (Option UInt64)
  | .null => some none
  | .count n => some (some n)
  | _ => none

/-- A choice is its name, or a group of one field of that name. -/
def choice? {α : Type} (d : Dialect) (ofName? : String → Option α) : Setting → Option α
  | .text s => ofName? s
  | .group [(some name, v)] => if d.isUnit v then ofName? name else none
  | _ => none

/-- The value of a field, or its default when it is missing. -/
def orDefault {α : Type} (read? : Setting → Option α) (default : α) : Option Setting → Option α
  | none => some default
  | some s => read? s

def limits? (d : Dialect) (s : Setting) : Option Limits :=
  match s.values? d ["memory_limit_bytes", "max_stack_size_bytes"] with
  | some [memory, stack] => do
    let memory ← orDefault limit? none memory
    let stack ← orDefault limit? none stack
    return ⟨memory, stack⟩
  | _ => none

def logging? (d : Dialect) (s : Setting) : Option Logging :=
  match s.values? d ["level", "log_to_console"] with
  | some [level, toConsole] => do
    let level ← orDefault (choice? d Level.ofName?) ({} : Logging).level level
    let toConsole ← orDefault flag? ({} : Logging).toConsole toConsole
    return ⟨level, toConsole⟩
  | _ => none

def config? (d : Dialect) (s : Setting) : Option Config :=
  let base : Config := {}
  match s.values? d ["table_name", "converter_name", "tag_property", "root_expression", "token_policy",
      "void_calls", "engine", "logging"] with
  | some [tableName, converterName, tagProperty, rootExpression, tokenPolicy, voidCalls, limits, logging] => do
    let tableName ← orDefault text? base.tableName tableName
    let converterName ← orDefault text? base.converterName converterName
    let tagProperty ← orDefault text? base.tagProperty tagProperty
    let rootExpression ← orDefault text? base.rootExpression rootExpression
    let tokenPolicy ← orDefault (choice? d TokenPolicy.ofName?) base.tokenPolicy tokenPolicy
    let voidCalls ← orDefault (choice? d VoidCalls.ofName?) base.voidCalls voidCalls
    let limits ← orDefault (limits? d) base.limits limits
    let logging ← orDefault (logging? d) base.logging logging
    return ⟨tableName, converterName, tagProperty, rootExpression, tokenPolicy, voidCalls, limits, logging⟩
  | _ => none

end Setting
end ScriptBridge
