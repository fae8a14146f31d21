import ScriptBridge.Double.Basic

/-! Conversion of floating-point numbers to integers of fixed width: the fraction is cut off, and what
lies beyond a bound becomes the bound. What is not a number becomes zero. -/
namespace ScriptBridge.Double

-- Powers are those of the core library, whatever algebra is there besides.
attribute [local instance (high)] instPowNat

/-- The integer part of a finite number, cut toward zero. -/
def truncated (x : Double) : Int :=
  let n : Int := (x.numerator / x.denominator : Nat)
  if x.negative then -n else n

/-- The integer part of a number without its sign; zero where there is none. -/
def toNatural (x : Double) : Nat := if x.isFinite then x.numerator / x.denominator else 0

def clamp (lo hi n : Int) : Int := max lo (min hi n)

/-- Truncation toward zero, saturating at the bounds. -/
def narrow (lo hi : Int) (x : Double) : Int :=
  if x.isNaN then 0
  else if x.isInfinite then (if x.negative then lo else hi)
  else clamp lo hi x.truncated

def toInt32 (x : Double) : Int32 := Int32.ofInt (narrow (-2 ^ (31 : Nat)) (2 ^ (31 : Nat) - 1) x)
def toInt64 (x : Double) : Int64 := Int64.ofInt (narrow (-2 ^ (63 : Nat)) (2 ^ (63 : Nat) - 1) x)
def toUInt64 (x : Double) : UInt64 := UInt64.ofNat (narrow 0 (2 ^ (64 : Nat) - 1) x).toNat

end ScriptBridge.Double
