import ScriptBridge.Double.Layout
import ScriptBridge.Double.Rounding
import ScriptBridge.Reference
import ScriptBridge.Wire

/-! Values of the native side. They tell integers from other numbers and references from strings, and
there are native values that no script has. -/
namespace ScriptBridge

inductive Native where
  | null
  | bool (b : Bool)
  | int (n : Int32)
  | long (n : Int64)
  | double (x : Double)
  | text (s : String)
  | array (items : List Native)
  | ref (r : Reference)
  /-- a value of a type that has no script form -/
  | foreign (typeName : String)
  deriving Inhabited

namespace Native

open Text (decimalInt)

def isNull : Native → Bool
  | .null => true
  | _ => false

def reference? : Native → Option Reference
  | .ref r => some r
  | _ => none

def kind : Native → String
  | .null => "null"
  | .bool _ => "bool"
  | .int _ => "int"
  | .long _ => "long"
  | .double _ => "double"
  | .text _ => "string"
  | .array _ => "array"
  | .ref _ => "reference"
  | .foreign _ => "foreign"

/-- An unsigned number of 32 bits. -/
def ofWord (n : UInt32) : Native := .long (Int64.ofNat n.toNat)

/-- A floating-point number of 32 bits, by its bits. -/
def ofSingle (bits : UInt32) : Native := .double (Double.ofSingleBits bits)

mutual
/-- Equality as the kinds have it: numbers by value, so that what is not a number differs from itself,
and references by slot. -/
def same : Native → Native → Bool
  | .null, .null => true
  | .bool a, .bool b => a == b
  | .int a, .int b => a == b
  | .long a, .long b => a == b
  | .double a, .double b => a.same b
  | .text a, .text b => a == b
  | .array as, .array bs => sameItems as bs
  | .ref a, .ref b => a.same b
  | .foreign a, .foreign b => a == b
  | _, _ => false

def sameItems : List Native → List Native → Bool
  | [], [] => true
  | a :: as, b :: bs => same a b && sameItems as bs
  | _, _ => false
end

mutual
/-- The references in a value, depth first and in order. -/
def references : Native → List Reference
  | .ref r => [r]
  | .array items => referencesOfItems items
  | _ => []

def referencesOfItems : List Native → List Reference
  | [] => []
  | v :: rest => v.references ++ referencesOfItems rest
end

mutual
/-- The form in which a value is shown in messages. -/
def inspect : Native → String
  | .null => "Null"
  | .bool b => "Bool(" ++ (if b then "true" else "false") ++ ")"
  | .int n => "Int(" ++ String.ofList (decimalInt n.toInt) ++ ")"
  | .long n => "Long(" ++ String.ofList (decimalInt n.toInt) ++ ")"
  | .double x => "Double(" ++ String.ofList (x.text .message) ++ ")"
  | .text s => "String(" ++ Text.quoted s ++ ")"
  | .array items => "Array([" ++ ", ".intercalate (inspectItems items) ++ "])"
  | .ref r => "Ref(" ++ r.inspect ++ ")"
  | .foreign t => "Foreign(" ++ Text.quoted t ++ ")"

def inspectItems : List Native → List String
  | [] => []
  | v :: rest => v.inspect :: inspectItems rest
end

end Native
end ScriptBridge
