import ScriptBridge.Double.Rounding

/-! TOML documents as trees, and the rules by which headers and dotted keys build one. -/
namespace ScriptBridge

/-- How a table came to be: by its own header, on the way to a deeper header, by dotted keys, or in
braces. -/
inductive TableOrigin where
  | header | implied | dotted | inline
  deriving DecidableEq, Repr, Inhabited

/-- A value. Of numbers with a point and of dates only the kind is kept. -/
inductive Toml where
  | text (s : String)
  | integer (n : Int)
  | real
  | moment
  | bool (b : Bool)
  | array (items : List Toml)
  | table (origin : TableOrigin) (fields : List (String × Toml))
  /-- an array of tables, written by repeated headers -/
  | tables (items : List Toml)
  deriving Inhabited

namespace Toml

mutual
/-- The nesting depth of arrays and of tables in braces. -/
def depth : Toml → Nat
  | .array items => 1 + depthItems items
  | .table .inline fields => 1 + depthFields fields
  | .table _ fields => depthFields fields
  | _ => 0

def depthItems : List Toml → Nat
  | [] => 0
  | v :: rest => max v.depth (depthItems rest)

def depthFields : List (String × Toml) → Nat
  | [] => 0
  | (_, v) :: rest => max v.depth (depthFields rest)
end

abbrev Fields := List (String × Toml)

def find? (key : String) (fields : Fields) : Option Toml := (fields.find? fun f => f.1 == key).map Prod.snd

/-- Sets the value of a key; a new key comes last. -/
def put (key : String) (v : Toml) : Fields → Fields
  | [] => [(key, v)]
  | (k, old) :: rest => if k == key then (k, v) :: rest else (k, old) :: put key v rest

/-- Changes the table at a path, with tables made on the way where there are none. Of an array of tables
the last one is meant. Dotted keys do not enter a table that has a header of its own, and nothing enters
a table in braces. -/
def descend (dotted : Bool) (change : TableOrigin → Fields → Option Fields) :
    List String → TableOrigin → Fields → Option Fields
  | [], origin, fields => change origin fields
  | key :: path, _, fields =>
    match find? key fields with
    | none =>
      let origin := if dotted then .dotted else .implied
      (descend dotted change path origin []).map fun inner => put key (.table origin inner) fields
    | some (.table origin inner) =>
      if origin == .inline || (dotted && origin == .header) then none
      else (descend dotted change path origin inner).map fun inner => put key (.table origin inner) fields
    | some (.tables items) =>
      match items.reverse with
      | .table origin inner :: before =>
        (descend dotted change path origin inner).map fun inner =>
          put key (.tables (before.reverse ++ [.table origin inner])) fields
      | _ => none
    | some _ => none

/-- Adds a new key to a table. -/
def addField (key : String) (v : Toml) (fields : Fields) : Option Fields :=
  if (find? key fields).isSome then none else some (fields ++ [(key, v)])

/-- Adds the value of a key, dotted or not, to a table. A table made by dotted keys takes dotted keys
alone, and any other one takes none of their last parts. -/
def addKey (path : List String) (key : String) (v : Toml) (origin : TableOrigin) (fields : Fields) :
    Option Fields :=
  descend true
    (fun at_ inner => if (at_ == .dotted) == path.isEmpty then none else addField key v inner)
    path origin fields

/-- The statements of a document. -/
inductive Statement where
  | field (path : List String) (key : String) (v : Toml)
  | tableHeader (path : List String) (key : String)
  | arrayHeader (path : List String) (key : String)

/-- The table that a header opens, with what deeper headers have put into it already. -/
def opened? (key : String) (fields : Fields) : Option Fields :=
  match find? key fields with
  | none => some []
  | some (.table .implied inner) => some inner
  | some _ => none

/-- A document under construction: the whole, and the header whose table takes the next fields. -/
structure Draft where
  root : Fields
  header : Option Statement
  current : Fields

namespace Draft

def empty : Draft := ⟨[], none, []⟩

/-- Puts the current table into its place. -/
def close? (d : Draft) : Option Fields :=
  match d.header with
  | none => some d.current
  | some (.tableHeader path key) =>
    descend false (fun _ inner => some (put key (.table .header d.current) inner)) path .header d.root
  | some (.arrayHeader path key) =>
    descend false
      (fun _ inner =>
        match find? key inner with
        | none => some (put key (.tables [.table .header d.current]) inner)
        | some (.tables items) => some (put key (.tables (items ++ [.table .header d.current])) inner)
        | some _ => none)
      path .header d.root
  | some (.field ..) => none

/-- The table of a header that has just been read; the place is checked, and the tables on the way to it
are made. -/
def start? (root : Fields) (path : List String) (key : String) (array : Bool) : Option Draft :=
  let check (_ : TableOrigin) (inner : Fields) : Option Fields :=
    if array then
      match find? key inner with
      | none => some inner
      | some (.tables _) => some inner
      | some _ => none
    else (opened? key inner).map fun _ => inner
  let header := if array then Statement.arrayHeader path key else .tableHeader path key
  (descend false check path .header root).map fun root => ⟨root, some header, []⟩

/-- The fields already in the table at a path. -/
def fieldsAt (key : String) : List String → Fields → Fields
  | [], fields => (opened? key fields).getD []
  | k :: path, fields =>
    match find? k fields with
    | some (.table _ inner) => fieldsAt key path inner
    | some (.tables items) =>
      match items.getLast? with
      | some (.table _ inner) => fieldsAt key path inner
      | _ => []
    | _ => []

def step? (d : Draft) : Statement → Option Draft
  | .field path key v =>
    (addKey path key v .header d.current).map fun current => { d with current }
  | .tableHeader path key => do
    let root ← d.close?
    let draft ← start? root path key false
    return { draft with current := fieldsAt key path root }
  | .arrayHeader path key => do
    let root ← d.close?
    start? root path key true

end Draft

/-- The fields of a document; `none` when its statements contradict each other. -/
def ofStatements? (statements : List Statement) : Option Fields := do
  let d ← statements.foldlM Draft.step? Draft.empty
  d.close?

end Toml
end ScriptBridge
