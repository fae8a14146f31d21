import ScriptBridge.Event
import ScriptBridge.Session
import ScriptBridge.Text.Casing
import ScriptBridge.Text.Escaped

/-! Script expressions: the texts by which slots, members and values are named to the engine. -/
namespace ScriptBridge

open Text (escape)

/-- The property that a getter-shaped member reads: the word `get` with a name that begins with an
upper-case letter behind it, that letter in lower case. -/
def propertyName? (member : String) : Option String :=
  match member.toList with
  | 'g' :: 'e' :: 't' :: first :: rest =>
    if Text.isUpper first then some (String.ofList (Text.lower first ++ rest)) else none
  | _ => none

namespace Expression

/-- A slot of the table. -/
def reference (table : String) (h : Handle) : List Char :=
  table.toList ++ '[' :: h.numeralText ++ [']']

def quoted (s : String) : List Char := '\'' :: escape s.toList ++ ['\'']

def truth (b : Bool) : List Char := if b then ['t', 'r', 'u', 'e'] else ['f', 'a', 'l', 's', 'e']

def null : List Char := ['n', 'u', 'l', 'l']

/-- Texts with commas between them. -/
def separated : List (List Char) → List Char
  | [] => []
  | [t] => t
  | t :: rest => t ++ ',' :: separated rest

/-- Without an owner every reference can be named. -/
def nameable (owner : Option Session) (r : Reference) : Bool :=
  match owner with
  | some s => s.owns r
  | none => true

mutual
/-- A value as an expression; what the owner cannot name is null. -/
def argument (table : String) (owner : Option Session) : Native → List Char
  | .null => null
  | .bool b => truth b
  | .int n => (Double.ofInt n.toInt).text .expression
  | .long n => (Double.ofInt n.toInt).text .expression
  | .double x => x.text .expression
  | .text s => quoted s
  | .array items => '[' :: separated (arguments table owner items) ++ [']']
  | .ref r => if nameable owner r then reference table r.handle else null
  | .foreign _ => null

def arguments (table : String) (owner : Option Session) : List Native → List (List Char)
  | [] => []
  | v :: rest => argument table owner v :: arguments table owner rest
end

mutual
/-- The events of rendering a value: one for each part that is passed as null though it is none. -/
def remarks (owner : Option Session) : Native → List Event
  | .array items => remarksOfAll owner items
  | .ref r => if nameable owner r then [] else [.unusableReference r.handle]
  | .foreign t => [.unrepresentable t]
  | _ => []

def remarksOfAll (owner : Option Session) : List Native → List Event
  | [] => []
  | v :: rest => remarks owner v ++ remarksOfAll owner rest
end

/-- A call of a member of a slot. Without arguments a getter-shaped member is read as its property. -/
def call (table : String) (owner : Option Session) (h : Handle) (member : String) (args : List Native) :
    List Char :=
  reference table h ++ '.' ::
    match propertyName? member, args with
    | some property, [] => property.toList
    | _, _ => member.toList ++ '(' :: separated (arguments table owner args) ++ [')']

end Expression

namespace Session

def lookup (s : Session) (h : Handle) : String := String.ofList (Expression.reference s.config.tableName h)

def argument (s : Session) (v : Native) : String :=
  String.ofList (Expression.argument s.config.tableName (some s) v)

def call (s : Session) (h : Handle) (member : String) (args : List Native) : String :=
  String.ofList (Expression.call s.config.tableName (some s) h member args)

end Session
end ScriptBridge
