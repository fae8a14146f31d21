import ScriptBridge.Double.Rounding
import ScriptBridge.Text.Decimal

/-! JSON documents as trees. Numbers keep their digits and objects their fields in order, repeated ones
included; what a reader of a document makes of them is its own affair. -/
namespace ScriptBridge

-- Powers are those of the core library, whatever algebra is there besides.
attribute [local instance (high)] instPowNat

namespace Json

/-- A number literal, part by part. -/
structure Number where
  negative : Bool
  whole : List Char
  fraction : List Char
  /-- the sign (`true` below zero) and the digits of an exponent -/
  exponent : Option (Bool × List Char)
  /-- written without point and exponent -/
  integral : Bool

end Json

/-- A string is `none` when its escapes do not pair their surrogates: such a string is well-formed JSON
but has no value. -/
inductive Json where
  | null
  | bool (b : Bool)
  | number (n : Json.Number)
  | text (s : Option String)
  | array (items : List Json)
  | object (fields : List (Option String × Json))
  deriving Inhabited

namespace Json

mutual
/-- The nesting depth of arrays and objects. -/
def depth : Json → Nat
  | .array items => 1 + depthItems items
  | .object fields => 1 + depthFields fields
  | _ => 0

def depthItems : List Json → Nat
  | [] => 0
  | v :: rest => max v.depth (depthItems rest)

def depthFields : List (Option String × Json) → Nat
  | [] => 0
  | (_, v) :: rest => max v.depth (depthFields rest)
end

namespace Number

open Text (decimal numeral digitValue)

def ofNat (n : Nat) : Number := ⟨false, decimal n, [], none, true⟩

/-- The value of an unsigned integer literal that fits 64 bits. -/
def toNat? (n : Number) : Option Nat :=
  if n.integral && !n.negative && decide (numeral n.whole < 2 ^ (64 : Nat)) then some (numeral n.whole) else none

/-- Reads digits into a 64-bit significand until the next one would overflow it; also returns how many
digits were read. -/
def grow (significand : Nat) : List Char → Nat × Nat
  | [] => (significand, 0)
  | c :: rest =>
    let next := 10 * significand + digitValue c
    if next < 2 ^ (64 : Nat) then
      let (s, n) := grow next rest
      (s, n + 1)
    else (significand, 0)

/-- Multiplies by a power of ten, itself rounded. Downward a large power is taken in steps of `10 ^ 308`;
upward anything beyond the range of numbers is refused. -/
def scaledBy (x : Double) (e : Int) : Option Double :=
  if e.natAbs ≤ 308 then
    let power := Double.ofDecimal false 1 e.natAbs
    if 0 ≤ e then
      let y := x.mulFinite power
      if y.isInfinite then none else some y
    else some (x.divFinite power)
  else if x.isZero then some x
  else if 0 ≤ e then none
  else scaledBy (x.divFinite (Double.ofDecimal false 1 308)) (e + 308)
termination_by (-e).toNat
decreasing_by omega

/-- The largest exponent that is read; a larger one means zero or a number out of range. -/
def maxExponent : Nat := 2 ^ (31 : Nat) - 1

/-- The floating-point number of a literal: the significand is rounded first and then scaled. -/
def toDouble? (n : Number) : Option Double :=
  let (s, usedWhole) := grow 0 n.whole
  let (s, usedFraction) := grow s n.fraction
  let base : Int := (n.whole.length - usedWhole : Nat) - (usedFraction : Int)
  let magnitude : Option Double := match n.exponent with
    | none => scaledBy (Double.ofNat s) base
    | some (below, ds) =>
      let e := numeral ds
      if maxExponent < e then (if s ≠ 0 ∧ !below then none else some Double.zero)
      else scaledBy (Double.ofNat s) (base + (if below then -(e : Int) else e))
  magnitude.map fun x => if n.negative then x.neg else x

end Number
end Json
end ScriptBridge
