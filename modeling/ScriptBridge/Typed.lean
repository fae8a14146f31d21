import ScriptBridge.Capability
import ScriptBridge.Conversion

/-! Typed results: the types that a caller can ask for, the shape each one expects from the engine, and
the reading of a native value as one. -/
namespace ScriptBridge

inductive ResultType where
  | unit
  | bool
  | int
  | long
  | double
  | text
  | native
  | reference
  | standIn (c : Capability)
  | option (element : ResultType)
  | list (element : ResultType)
  deriving DecidableEq, Repr, Inhabited

namespace ResultType

/-- The values of a result type. -/
def Carrier : ResultType → Type
  | unit => Unit
  | bool => Bool
  | int => Int32
  | long => Int64
  | double => Double
  | text => String
  | native => Native
  | reference => Reference
  | standIn c => StandIn c
  | option t => Option t.Carrier
  | list t => List t.Carrier

def shape : ResultType → Shape
  | unit => .void
  | bool => .bool
  | int => .int
  | long => .long
  | double => .double
  | text => .text
  | native => .any
  | reference => .capability Capability.dynamic.name
  | standIn c => .capability c.name
  | option t => t.shape
  | list t => .array t.shape

private def mismatch {α : Type} (expected : String) (v : Native) : Except ConversionError α :=
  .error (.shapeMismatch expected v.kind)

/-- Reads a native value. Numbers are widened but never narrowed, and null is read only as a missing
option, as itself, or as the result of a call that has none. -/
def ofNative : (t : ResultType) → Native → Except ConversionError t.Carrier
  | unit, _ => .ok ()
  | native, v => .ok v
  | bool, .bool b => .ok b
  | bool, v => mismatch "bool" v
  | int, .int n => .ok n
  | int, v => mismatch "int" v
  | long, .long n => .ok n
  | long, .int n => .ok n.toInt64
  | long, v => mismatch "long" v
  | double, .double x => .ok x
  | double, .int n => .ok (Double.ofInt n.toInt)
  | double, .long n => .ok (Double.ofInt n.toInt)
  | double, v => mismatch "double" v
  | text, .text s => .ok s
  | text, v => mismatch "string" v
  | reference, .ref r => .ok r
  | reference, v => mismatch "reference" v
  | standIn c, .ref r => .ok (StandIn.ofReference c r)
  | standIn c, v => mismatch c.name v
  | option _, .null => .ok none
  | option t, v => (t.ofNative v).map some
  | list t, .array items => items.mapM t.ofNative
  | list t, v => mismatch (list t).shape.name v

/-- The native value of a typed one. -/
def toNative : (t : ResultType) → t.Carrier → Native
  | unit, _ => .null
  | bool, b => .bool b
  | int, n => .int n
  | long, n => .long n
  | double, x => .double x
  | text, s => .text s
  | native, v => v
  | reference, r => .ref r
  | standIn _, s => .ref s.reference
  | option _, none => .null
  | option t, some x => t.toNative x
  | list t, xs => .array (xs.map t.toNative)

end ResultType
end ScriptBridge
