import ScriptBridge.Double.Rounding
import ScriptBridge.Text.Decimal

/-! The shortest decimal that reads back as a given number. -/
namespace ScriptBridge.Double

-- Powers are those of the core library, whatever algebra is there besides.
attribute [local instance (high)] instPowNat

open ScriptBridge.Text (decimal)

/-- The exponent `e` with `10 ^ (e - 1) ≤ num / den < 10 ^ e`. -/
def decimalPoint (num den : Nat) : Int :=
  if den ≤ num then (decimal (num / den)).length
  else 1 - ((decimal ((den + num - 1) / num - 1)).length : Int)

/-- The magnitude that the decimal `d * 10 ^ e` rounds to. -/
def decimalMagnitude (d : Nat) (e : Int) : Nat :=
  BinaryFormat.double.round (d * 10 ^ e.toNat) (10 ^ (-e).toNat)

/-- Which decimal of a given number of digits may stand for a number. -/
inductive Choice where
  /-- the nearest one that reads back; of two the larger -/
  | nearestUp
  /-- the nearest one that reads back; of two the one that ends in an even digit -/
  | nearestEven
  /-- the number rounded to these digits, when that reads back -/
  | rounded
  deriving DecidableEq, Repr, Inhabited

/-- The decimal in units of `10 ^ e` that stands for a magnitude, when one does. -/
def onGrid? (c : Choice) (magnitude num den : Nat) (e : Int) : Option Nat :=
  let n := num * 10 ^ (-e).toNat
  let d := den * 10 ^ e.toNat
  let low := n / d
  let r := n % d
  let reads (m : Nat) : Bool := decide (decimalMagnitude m e = magnitude)
  match c with
  | .rounded => if reads (roundDiv n d) then some (roundDiv n d) else none
  | _ =>
    if reads low && reads (low + 1) then
      if 2 * r < d then some low
      else if d < 2 * r then some (low + 1)
      else if c = .nearestUp || low % 2 = 1 then some (low + 1) else some low
    else if reads low then some low
    else if reads (low + 1) then some (low + 1)
    else none

/-- Looks for a decimal of `count - fuel`, … , `count` digits, and ends with the exact one. -/
def shortestFrom (c : Choice) (x : Double) (point : Int) : (fuel count : Nat) → Nat × Int
  | 0, _ => (x.significand * 2 ^ x.scale.toNat * 5 ^ (-x.scale).toNat, min x.scale 0)
  | fuel + 1, count =>
    let e := point - count
    match onGrid? c x.magnitude x.numerator x.denominator e with
    | some d => (d, e)
    | none => shortestFrom c x point fuel (count + 1)

/-- A decimal without trailing zeros. -/
def withoutTrailingZeros (d : Nat) (e : Int) : Nat × Int :=
  if d % 10 = 0 ∧ d ≠ 0 then withoutTrailingZeros (d / 10) (e + 1) else (d, e)
termination_by d
decreasing_by omega

/-- The digits and the exponent of the shortest decimal of a finite number other than zero. -/
def shortest (c : Choice) (x : Double) : Nat × Int :=
  let (d, e) := shortestFrom c x (decimalPoint x.numerator x.denominator) 17 1
  withoutTrailingZeros d e

end ScriptBridge.Double
