import ScriptBridge.Script.Heap

/-! Scripts as trees. -/
namespace ScriptBridge.Script

inductive Expr where
  | constant (v : Value)
  | this
  | name (s : String)
  | array (items : List Expr)
  /-- an item that an array leaves out -/
  | hole
  | object (members : List (String × Expr))
  /-- a function of a page, with the name that it gets -/
  | function (name : String) (code : Code)
  | member (base : Expr) (name : String)
  | index (base key : Expr)
  | call (callee : Expr) (args : List Expr)
  | construct (callee : Expr) (args : List Expr)
  /-- a new proxy around an object -/
  | proxy (target : Expr) (trap : Trap)
  | not (e : Expr)
  | negate (e : Expr)
  | typeOf (e : Expr)
  | delete (e : Expr)
  /-- whether two values are the same, or are not -/
  | equals (expected : Bool) (a b : Expr)
  | isIn (key base : Expr)
  | both (a b : Expr)
  | either (a b : Expr)
  | assign (target value : Expr)
  /-- the value of the second, after the first -/
  | sequence (a b : Expr)
  deriving Inhabited

namespace Expr

/-- What can be assigned to. -/
def isTarget : Expr → Bool
  | name _ | member .. | index .. => true
  | _ => false

end Expr

inductive Statement where
  | run (e : Expr)
  | result (e : Option Expr)
  | throw (e : Expr)
  | declare (name : String) (e : Option Expr)
  deriving Inhabited

/-- The names that statements declare. -/
def Statement.declared : List Statement → List String
  | [] => []
  | .declare x _ :: rest => x :: declared rest
  | _ :: rest => declared rest

/-- The installation of a table and its converter under their names, with the root object and the tag. -/
structure Installation where
  root : Expr
  tag : String
  scheme : String
  table : String
  converter : String
  deriving Inhabited

inductive Program where
  | statements (body : List Statement)
  | install (i : Installation)
  /-- installs when the condition does not hold -/
  | installUnless (condition : Expr) (i : Installation)
  deriving Inhabited

end ScriptBridge.Script
