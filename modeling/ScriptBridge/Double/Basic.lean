/-! Binary floating-point numbers of 64 bits, carried by their bits: one sign bit, eleven exponent bits
and fifty-two fraction bits. A finite number is its significand times a power of two. -/
namespace ScriptBridge

-- Powers are those of the core library, whatever algebra is there besides.
attribute [local instance (high)] instPowNat

structure Double where
  bits : UInt64
  deriving DecidableEq, Repr, Inhabited

namespace Double

/-- The bits without the sign. For numbers of one sign the order of the magnitudes is the order of the
absolute values. -/
def magnitude (x : Double) : Nat := x.bits.toNat % 2 ^ (63 : Nat)

def negative (x : Double) : Bool := decide (2 ^ (63 : Nat) ≤ x.bits.toNat)

/-- The magnitude of an infinity; the magnitudes above it are not numbers. -/
def infinite : Nat := 0x7FF * 2 ^ (52 : Nat)

def ofParts (negative : Bool) (magnitude : Nat) : Double :=
  ⟨UInt64.ofNat (if negative then 2 ^ (63 : Nat) + magnitude else magnitude)⟩

def isNaN (x : Double) : Bool := decide (infinite < x.magnitude)
def isInfinite (x : Double) : Bool := decide (x.magnitude = infinite)
def isFinite (x : Double) : Bool := decide (x.magnitude < infinite)
def isZero (x : Double) : Bool := decide (x.magnitude = 0)

def nan : Double := ⟨0x7FF8000000000000⟩
def infinity : Double := ofParts false infinite
def negInfinity : Double := ofParts true infinite
def zero : Double := ⟨0⟩

def exponentField (magnitude : Nat) : Nat := magnitude / 2 ^ (52 : Nat)

/-- The integer `m` of a finite magnitude `m * 2 ^ q`: the fraction bits, with the leading bit that all
but the smallest numbers leave out. -/
def significandOf (magnitude : Nat) : Nat :=
  if exponentField magnitude = 0 then magnitude % 2 ^ (52 : Nat) else 2 ^ (52 : Nat) + magnitude % 2 ^ (52 : Nat)

/-- The exponent `q` of a finite magnitude `m * 2 ^ q`. -/
def scaleOf (magnitude : Nat) : Int := (max (exponentField magnitude) 1 : Nat) - 1075

def significand (x : Double) : Nat := significandOf x.magnitude
def scale (x : Double) : Int := scaleOf x.magnitude

/-- The absolute value of a finite number as a fraction. -/
def numerator (x : Double) : Nat := x.significand * 2 ^ x.scale.toNat
def denominator (x : Double) : Nat := 2 ^ (-x.scale).toNat

/-- Equality of the numbers: the two zeros are equal, and what is not a number equals nothing. -/
def same (x y : Double) : Bool :=
  !x.isNaN && !y.isNaN && (decide (x.bits = y.bits) || (x.isZero && y.isZero))

def neg (x : Double) : Double := ofParts (!x.negative) x.magnitude

/-- The place of a number in the order of the numbers. -/
def rank (x : Double) : Int := if x.negative then -x.magnitude else x.magnitude

/-- The order of the numbers; what is not a number stands in no place of it. -/
def less (x y : Double) : Bool := !x.isNaN && !y.isNaN && decide (x.rank < y.rank)

/-- Not below zero; holds for both zeros and for no value that is not a number. -/
def isNonNegative (x : Double) : Bool := !x.isNaN && (!x.negative || x.isZero)

end Double
end ScriptBridge
