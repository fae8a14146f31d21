import Mathlib.Data.Rat.Floor
import ScriptBridge.Proofs.Integers
import ScriptBridge.Conversion

/-! Numbers that become integers of a fixed width. A bit pattern stands for a rational number, an infinity or nothing,
by the layout of the format alone. Narrowing cuts the rational toward zero and keeps it within the bounds, so that it
follows the order of the numbers, and the narrow width can be reached through the wide one. -/
namespace ScriptBridge.Double

variable {x y : Double} {lo hi lo' hi' : ℤ}

/-- The integer part of a rational, cut toward zero. -/
def cut (q : ℚ) : ℤ := if q < 0 then ⌈q⌉ else ⌊q⌋

theorem cut_natCast_div (n d : ℕ) : cut ((n : ℚ) / d) = (n / d : ℕ) := by
  rw [cut, if_neg (not_lt.2 (by positivity)), Rat.floor_natCast_div_natCast, Int.natCast_div]

theorem cut_neg (q : ℚ) : cut (-q) = -cut q := by
  rcases lt_trichotomy q 0 with hneg | rfl | hpos
  · rw [cut, cut, if_neg (by linarith), if_pos hneg, Int.floor_neg]
  · simp [cut]
  · rw [cut, cut, if_pos (by linarith), if_neg (by linarith), Int.ceil_neg]

theorem cut_le_cut {q r : ℚ} (hqr : q ≤ r) : cut q ≤ cut r := by
  unfold cut
  split_ifs with hq hr hr
  · exact Int.ceil_mono hqr
  · calc ⌈q⌉ ≤ 0 := Int.ceil_le.2 (by exact_mod_cast hq.le)
      _ ≤ ⌊r⌋ := Int.floor_nonneg.2 (not_lt.1 hr)
  · exact absurd (hqr.trans_lt hr) hq
  · exact Int.floor_mono hqr

/-- What a bit pattern stands for. -/
inductive Meaning where
  | notNumber
  | infinite (negative : Bool)
  | rational (q : ℚ)

namespace Meaning

variable {a b : Meaning}

/-- The order of the numbers, in which what is not a number has no place. -/
inductive Le : Meaning → Meaning → Prop
  | least {a : Meaning} (h : a ≠ notNumber) : Le (infinite true) a
  | greatest {a : Meaning} (h : a ≠ notNumber) : Le a (infinite false)
  | rational {q r : ℚ} (h : q ≤ r) : Le (rational q) (rational r)

/-- The integer part, or the bound beyond which it lies. -/
def narrowed (lo hi : ℤ) : Meaning → ℤ
  | notNumber => 0
  | infinite negative => if negative then lo else hi
  | rational q => max lo (min hi (cut q))

theorem narrowed_mem (hle : lo ≤ hi) (h : a ≠ notNumber) : lo ≤ a.narrowed lo hi ∧ a.narrowed lo hi ≤ hi := by
  cases a with
  | notNumber => exact absurd rfl h
  | infinite negative => cases negative <;> simp [narrowed, hle]
  | rational q => exact ⟨le_max_left _ _, max_le hle (min_le_left _ _)⟩

/-- Narrowing follows the order of the numbers. -/
theorem Le.narrowed_le_narrowed (h : Le a b) (hle : lo ≤ hi) : a.narrowed lo hi ≤ b.narrowed lo hi := by
  cases h with
  | least h => exact (narrowed_mem hle h).1
  | greatest h => exact (narrowed_mem hle h).2
  | rational h => exact max_le_max le_rfl (min_le_min le_rfl (cut_le_cut h))

/-- Bounds around zero can be reached through wider ones. -/
theorem narrowed_narrowed (a : Meaning) (hlo : lo' ≤ lo) (h0 : lo ≤ 0) (h1 : 0 ≤ hi) (hhi : hi ≤ hi') :
    a.narrowed lo hi = max lo (min hi (a.narrowed lo' hi')) := by
  cases a with
  | notNumber => rw [narrowed, narrowed, min_eq_right h1, max_eq_right h0]
  | infinite negative =>
    cases negative with
    | true => rw [narrowed, narrowed, if_pos rfl, if_pos rfl, min_eq_right (by omega), max_eq_left hlo]
    | false => rw [narrowed, narrowed, if_neg Bool.false_ne_true, if_neg Bool.false_ne_true, min_eq_left hhi,
        max_eq_right (h0.trans h1)]
  | rational q =>
    rw [narrowed, narrowed]
    omega

end Meaning

/-! The layout of the format: a sign, eleven bits of exponent, and the bits of a fraction. -/

def signBit (x : Double) : Bool := decide (x.bits.toNat / 2 ^ 63 = 1)

def exponentBits (x : Double) : ℕ := x.bits.toNat / 2 ^ 52 % 2 ^ 11

def fractionBits (x : Double) : ℕ := x.bits.toNat % 2 ^ 52

/-- The absolute value by the layout. The fraction stands behind a one, and behind a zero where the exponent is the
least. -/
def absolute (x : Double) : ℚ :=
  if x.exponentBits = 0 then 2 ^ (-1022 : ℤ) * (x.fractionBits / 2 ^ 52)
  else 2 ^ ((x.exponentBits : ℤ) - 1023) * (1 + x.fractionBits / 2 ^ 52)

/-- What the bits stand for by the layout, in which the greatest exponent is not that of a finite number. -/
def meaning (x : Double) : Meaning :=
  if x.exponentBits = 2047 then if x.fractionBits = 0 then .infinite x.signBit else .notNumber
  else .rational (if x.signBit then -x.absolute else x.absolute)

theorem signBit_eq (x : Double) : x.signBit = x.negative := by
  have := x.bits.toNat_lt
  rw [signBit, Double.negative, decide_eq_decide]
  omega

theorem exponentBits_eq (x : Double) : x.exponentBits = exponentField x.magnitude := by
  unfold exponentBits exponentField magnitude
  omega

theorem fractionBits_eq (x : Double) : x.fractionBits = x.magnitude % 2 ^ 52 := by
  unfold fractionBits magnitude
  omega

theorem absolute_eq (x : Double) : x.absolute = x.numerator / x.denominator := by
  -- The last bit of the fraction is worth `2 ^ -52` of the digit before its point.
  rw [ratio_eq, absolute, significand, significandOf, scale, scaleOf, exponentBits_eq, fractionBits_eq]
  split_ifs with h0
  · rw [h0, show ((max 0 1 : ℕ) : ℤ) - 1075 = -1022 + -52 by rfl, zpow_add₀ two_ne_zero, zpow_neg _ 52, zpow_ofNat]
    ring
  · rw [show ((max (exponentField x.magnitude) 1 : ℕ) : ℤ) - 1075 = exponentField x.magnitude - 1023 + -52 by omega,
      zpow_add₀ two_ne_zero, zpow_neg _ 52, zpow_ofNat]
    push_cast
    field_simp
    norm_num

theorem meaning_of_isNaN (h : x.isNaN = true) : x.meaning = .notNumber := by
  have hnan : infinite < x.magnitude := of_decide_eq_true h
  have hbound : x.magnitude < 2 ^ 63 := Nat.mod_lt _ (by decide)
  unfold infinite at hnan
  rw [meaning, exponentBits_eq, fractionBits_eq, if_pos (by unfold exponentField; omega), if_neg (by omega)]

theorem meaning_of_isInfinite (h : x.isInfinite = true) : x.meaning = .infinite x.negative := by
  have hinf : x.magnitude = infinite := of_decide_eq_true h
  rw [meaning, exponentBits_eq, fractionBits_eq, signBit_eq, hinf, if_pos (by decide), if_pos (by decide)]

theorem meaning_of_isFinite (h : x.isFinite = true) :
    x.meaning = .rational (if x.negative then -(x.numerator / x.denominator) else x.numerator / x.denominator) := by
  have hfinite : x.magnitude < infinite := of_decide_eq_true h
  unfold infinite at hfinite
  rw [meaning, exponentBits_eq, signBit_eq, absolute_eq, if_neg (by unfold exponentField; omega)]

/-- To cut off the fraction of a number is to cut the rational that it stands for. -/
theorem truncated_eq_cut (x : Double) :
    x.truncated = cut (if x.negative then -(x.numerator / x.denominator) else x.numerator / x.denominator) := by
  unfold truncated
  dsimp only
  split_ifs
  · rw [cut_neg, cut_natCast_div]
  · rw [cut_natCast_div]

/-- A number is narrowed as what it stands for. -/
theorem narrow_eq_narrowed (lo hi : ℤ) (x : Double) : narrow lo hi x = x.meaning.narrowed lo hi := by
  unfold narrow
  split_ifs with hnan hinf hneg
  · rw [meaning_of_isNaN hnan, Meaning.narrowed]
  · rw [meaning_of_isInfinite hinf, hneg, Meaning.narrowed, if_pos rfl]
  · rw [meaning_of_isInfinite hinf, Meaning.narrowed, if_neg hneg]
  · have hfinite : x.isFinite = true := isFinite_of_not (by simpa using hnan) (by simpa using hinf)
    rw [meaning_of_isFinite hfinite, Meaning.narrowed, clamp, truncated_eq_cut]

theorem toInt_toInt32 (x : Double) : x.toInt32.toInt = x.meaning.narrowed (-2 ^ 31) (2 ^ 31 - 1) := by
  have hmem := narrow_mem (-2 ^ 31) (2 ^ 31 - 1) (by decide) (by decide) (by decide) x
  rw [← narrow_eq_narrowed]
  exact Int32.toInt_ofInt_of_le hmem.1 (by omega)

theorem toInt_toInt64 (x : Double) : x.toInt64.toInt = x.meaning.narrowed (-2 ^ 63) (2 ^ 63 - 1) := by
  have hmem := narrow_mem (-2 ^ 63) (2 ^ 63 - 1) (by decide) (by decide) (by decide) x
  rw [← narrow_eq_narrowed]
  exact Int64.toInt_ofInt_of_le hmem.1 (by omega)

end ScriptBridge.Double

namespace ScriptBridge.Session

open Double (toInt_toInt32 toInt_toInt64)

/-- Where an integer is expected, a number becomes its integer part or the bound of the width beyond which it lies, and
zero if it is no number. Greater numbers do not become smaller integers, and the integer of 32 bits is that of 64 bits
within the narrower bounds. -/
theorem numbers_narrow_in_order (s : Session) (x y : Double) :
    (s.fromWire (.number x) .int = ⟨.ok (.int x.toInt32), []⟩ ∧
      x.toInt32.toInt = x.meaning.narrowed (-2 ^ 31) (2 ^ 31 - 1)) ∧
    (s.fromWire (.number x) .long = ⟨.ok (.long x.toInt64), []⟩ ∧
      x.toInt64.toInt = x.meaning.narrowed (-2 ^ 63) (2 ^ 63 - 1)) ∧
    (x.meaning.Le y.meaning → x.toInt32 ≤ y.toInt32 ∧ x.toInt64 ≤ y.toInt64) ∧
    x.toInt32.toInt = max (-2 ^ 31) (min (2 ^ 31 - 1) x.toInt64.toInt) := by
  refine ⟨⟨rfl, x.toInt_toInt32⟩, ⟨rfl, x.toInt_toInt64⟩, fun hle => ⟨?_, ?_⟩, ?_⟩
  · rw [Int32.le_iff_toInt_le, toInt_toInt32, toInt_toInt32]
    exact hle.narrowed_le_narrowed (by decide)
  · rw [Int64.le_iff_toInt_le, toInt_toInt64, toInt_toInt64]
    exact hle.narrowed_le_narrowed (by decide)
  · rw [toInt_toInt32, toInt_toInt64]
    exact x.meaning.narrowed_narrowed (by decide) (by decide) (by decide) (by decide)

theorem numbers_narrow_in_order_bounds : (⟨0xC3E0000000000000⟩ : Double).meaning = .rational (-2 ^ 63) ∧
    (⟨0x43E0000000000000⟩ : Double).meaning = .rational (2 ^ 63) ∧
    (⟨0xC3E0000000000000⟩ : Double).meaning.Le (⟨0x43E0000000000000⟩ : Double).meaning ∧
    (⟨0xC3E0000000000000⟩ : Double).toInt32 ≤ (⟨0x43E0000000000000⟩ : Double).toInt32 ∧
    (⟨0xC3E0000000000000⟩ : Double).toInt64 ≤ (⟨0x43E0000000000000⟩ : Double).toInt64 := by
  have habsolute (x : Double) (hexponent : x.exponentBits = 1086) (hfraction : x.fractionBits = 0) :
      x.absolute = 2 ^ 63 := by
    rw [Double.absolute, hexponent, hfraction]
    norm_num
  have hlow : (⟨0xC3E0000000000000⟩ : Double).meaning = .rational (-2 ^ 63) := by
    rw [Double.meaning, if_neg (by decide), if_pos (by decide), habsolute _ rfl rfl]
  have hhigh : (⟨0x43E0000000000000⟩ : Double).meaning = .rational (2 ^ 63) := by
    rw [Double.meaning, if_neg (by decide), if_neg (by decide), habsolute _ rfl rfl]
  have hle : (⟨0xC3E0000000000000⟩ : Double).meaning.Le (⟨0x43E0000000000000⟩ : Double).meaning := by
    rw [hlow, hhigh]
    exact .rational (by norm_num)
  exact ⟨hlow, hhigh, hle, (numbers_narrow_in_order ⟨0, {}, 1⟩ _ _).2.2.1 hle⟩

-- The lower bound of 64 bits is a number, and the upper one lies between two numbers.
example : (⟨0xC3E0000000000000⟩ : Double).toInt64 = Int64.minValue ∧
    (⟨0x43DFFFFFFFFFFFFF⟩ : Double).toInt64 = 9223372036854774784 ∧
    (⟨0x43E0000000000000⟩ : Double).toInt64 = Int64.maxValue := by
  decide +kernel

end ScriptBridge.Session
