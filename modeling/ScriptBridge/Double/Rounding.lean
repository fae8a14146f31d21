import ScriptBridge.Double.Basic

/-! Rounding of fractions to floating-point numbers: to the nearest, and from the middle to the one with
the even significand. -/
namespace ScriptBridge

-- Powers are those of the core library, whatever algebra is there besides.
attribute [local instance (high)] instPowNat

/-- The quotient rounded to the nearest integer; the middle goes to the even neighbour. -/
def roundDiv (num den : Nat) : Nat :=
  let q := num / den
  let r := num % den
  if 2 * r < den then q else if den < 2 * r then q + 1 else q + q % 2

/-- A binary format: the bits of its significand, the exponent of its smallest unit, and the magnitude
of its infinity. -/
structure BinaryFormat where
  precision : Nat
  minScale : Int
  infinite : Nat

namespace BinaryFormat

def double : BinaryFormat := ⟨53, -1074, Double.infinite⟩
def single : BinaryFormat := ⟨24, -149, 0xFF * 2 ^ (23 : Nat)⟩

/-- `num / den / 2 ^ e` as a fraction. -/
def shifted (num den : Nat) (e : Int) : Nat × Nat := (num * 2 ^ (-e).toNat, den * 2 ^ e.toNat)

/-- The exponent of the unit in which a positive fraction is rounded: its significand fills the
precision, unless that would need a unit below the smallest one. -/
def unitScale (f : BinaryFormat) (num den : Nat) : Int :=
  let e : Int := (num.log2 : Int) - den.log2 - (f.precision - 1 : Nat)
  let (n, d) := shifted num den e
  max f.minScale (if n / d < 2 ^ (f.precision - 1) then e - 1 else e)

/-- The magnitude nearest to a fraction, the infinity included. -/
def round (f : BinaryFormat) (num den : Nat) : Nat :=
  if num = 0 then 0
  else
    let e := f.unitScale num den
    let (n, d) := shifted num den e
    min f.infinite ((e - f.minScale).toNat * 2 ^ (f.precision - 1) + roundDiv n d)

end BinaryFormat

namespace Double

/-- The number nearest to `± num / den`. -/
def ofRatio (negative : Bool) (num den : Nat) : Double :=
  ofParts negative (BinaryFormat.double.round num den)

def ofNat (n : Nat) : Double := ofRatio false n 1

def ofInt (n : Int) : Double := ofRatio (decide (n < 0)) n.natAbs 1

/-- The number nearest to `± m * 10 ^ e`. Beyond the ranges spelled out here the result is an infinity
or a zero already. -/
def ofDecimal (negative : Bool) (m : Nat) (e : Int) : Double :=
  if m = 0 then ofParts negative 0
  else if 400 < e then ofParts negative infinite
  else if e < -400 - (m.log2 : Int) then ofParts negative 0
  else ofRatio negative (m * 10 ^ e.toNat) (10 ^ (-e).toNat)

/-- The product of finite numbers. -/
def mulFinite (x y : Double) : Double :=
  ofRatio (x.negative != y.negative) (x.numerator * y.numerator) (x.denominator * y.denominator)

/-- The quotient of finite numbers, the second of which is not zero. -/
def divFinite (x y : Double) : Double :=
  ofRatio (x.negative != y.negative) (x.numerator * y.denominator) (x.denominator * y.numerator)

/-- The sum of two numbers. -/
def add (x y : Double) : Double :=
  if x.isNaN || y.isNaN then nan
  else if x.isInfinite then (if y.isInfinite && x.negative != y.negative then nan else x)
  else if y.isInfinite then y
  else
    let signed (z : Double) (n : Nat) : Int := if z.negative then -(n : Int) else n
    let total := signed x (x.numerator * y.denominator) + signed y (y.numerator * x.denominator)
    if total = 0 then ofParts (x.negative && y.negative) 0
    else ofRatio (decide (total < 0)) total.natAbs (x.denominator * y.denominator)

/-- The number that a 32-bit pattern stands for. -/
def ofSingleBits (bits : UInt32) : Double :=
  let neg := decide (2 ^ (31 : Nat) ≤ bits.toNat)
  let m := bits.toNat % 2 ^ (31 : Nat)
  let inf := BinaryFormat.single.infinite
  if inf < m then nan
  else if m = inf then ofParts neg infinite
  else
    let field : Nat := m / 2 ^ (23 : Nat)
    let sig := if field = 0 then m else 2 ^ (23 : Nat) + m % 2 ^ (23 : Nat)
    let e : Int := (max field 1 : Nat) - 150
    ofRatio neg (sig * 2 ^ e.toNat) (2 ^ (-e).toNat)

/-- The nearest number of 32 bits, as a bit pattern. -/
def toSingleBits (x : Double) : UInt32 :=
  let sign := if x.negative then 2 ^ (31 : Nat) else 0
  if x.isNaN then 0x7FC00000
  else if x.isInfinite then UInt32.ofNat (sign + BinaryFormat.single.infinite)
  else UInt32.ofNat (sign + BinaryFormat.single.round x.numerator x.denominator)

end Double
end ScriptBridge
