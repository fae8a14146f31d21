import ScriptBridge.Double.Narrowing
import ScriptBridge.Proofs.WholeNumbers

/-! Integers as floating-point numbers and back. An integer comes back from the nearest number when that number
is the integer itself, and the greatest integer of a width comes back because narrowing saturates. -/
namespace ScriptBridge.Double

variable {x : Double} {n lo hi : Int}

/-- The number is this integer. -/
def Is (x : Double) (n : Int) : Prop :=
  x.isFinite = true ∧ (if x.negative then -(x.numerator : Int) else x.numerator) = n * x.denominator

theorem denominator_pos (x : Double) : 0 < x.denominator := Nat.two_pow_pos _

theorem Is.natAbs (h : x.Is n) : x.numerator = n.natAbs * x.denominator := by
  have habs := congrArg Int.natAbs h.2
  rw [Int.natAbs_mul, Int.natAbs_natCast] at habs
  split at habs <;> simpa using habs

theorem Is.truncated (h : x.Is n) : x.truncated = n := by
  have hden : (x.denominator : Int) ≠ 0 := by exact_mod_cast x.denominator_pos.ne'
  have hvalue := h.2
  rw [Double.truncated, h.natAbs, Nat.mul_div_cancel _ x.denominator_pos]
  rw [h.natAbs] at hvalue
  push_cast at hvalue ⊢
  split at hvalue <;> rename_i hneg
  · rw [if_pos hneg]
    exact Int.eq_of_mul_eq_mul_right hden (by rw [Int.neg_mul, hvalue])
  · rw [if_neg hneg]
    exact Int.eq_of_mul_eq_mul_right hden hvalue

theorem negative_ofInt (n : Int) : (ofInt n).negative = decide (n < 0) := negative_ofRatio _ _ _

/-- The sign stands beside the number that is nearest to the absolute value. -/
theorem magnitude_ofInt (n : Int) : (ofInt n).magnitude = (ofNat n.natAbs).magnitude := by
  rw [ofInt, ofNat, magnitude_ofRatio, magnitude_ofRatio]

theorem is_of_natAbs {y : Double} (hmag : (ofInt n).magnitude = y.magnitude) (hy : y.isFinite = true)
    (hvalue : y.numerator = n.natAbs * y.denominator) : (ofInt n).Is n := by
  have hnum : (ofInt n).numerator = y.numerator := by
    rw [numerator, numerator, significand, significand, scale, scale, hmag]
  have hden : (ofInt n).denominator = y.denominator := by rw [denominator, denominator, scale, scale, hmag]
  refine ⟨by rwa [isFinite, hmag], ?_⟩
  rw [negative_ofInt, hnum, hden, hvalue]
  push_cast
  by_cases hneg : n < 0
  · rw [if_pos (decide_eq_true hneg), abs_of_neg hneg]
    ring
  · rw [if_neg (by simpa using hneg), abs_of_nonneg (Int.not_lt.1 hneg)]

/-- An integer that some number is, is the number nearest to it. -/
theorem Is.ofInt (h : x.Is n) : (ofInt n).Is n := by
  refine is_of_natAbs ?_ h.1 h.natAbs
  rw [Double.ofInt, magnitude_ofRatio, ← round_self h.1]
  refine BinaryFormat.round_congr Nat.one_ne_zero x.denominator_pos.ne' ?_
  rw [h.natAbs, Nat.mul_one]

theorem is_ofInt (h : n.natAbs < 2 ^ 53) : (ofInt n).Is n :=
  is_of_natAbs (magnitude_ofInt n) (ofNat_exact h).1 (ofNat_exact h).2

/-- The number nearest to a large integer is whole. -/
theorem denominator_ofInt (h : 2 ^ 52 ≤ n.natAbs) : (ofInt n).denominator = 1 := by
  have hpos : n.natAbs ≠ 0 := by omega
  obtain ⟨e, he, hlow, hhigh⟩ := BinaryFormat.unitScale_spec (f := .double) hpos Nat.one_ne_zero
  have hunit : 0 ≤ e := by
    have hlarge : (2 : ℚ) ^ (52 : Int) ≤ (n.natAbs : ℚ) / (1 : Nat) := by
      rw [Nat.cast_one, div_one]
      exact_mod_cast h
    have := (zpow_lt_zpow_iff_right₀ (one_lt_two : (1 : ℚ) < 2)).1 (hlarge.trans_lt hhigh)
    simp only [BinaryFormat.double] at this
    omega
  have hscale : BinaryFormat.double.unitScale n.natAbs 1 = e := by
    rw [he]
    exact max_eq_right ((by decide : BinaryFormat.double.minScale ≤ 0).trans hunit)
  have hdigits : 2 ^ 52 ≤ roundDiv (BinaryFormat.shifted n.natAbs 1 e).1 (BinaryFormat.shifted n.natAbs 1 e).2 := by
    refine le_trans ?_ (le_roundDiv _ _)
    exact not_lt.1 fun hlt => not_lt.2 hlow ((BinaryFormat.shifted_div_lt _ Nat.one_ne_zero e 52).1 hlt)
  have hmag : 1075 * 2 ^ 52 ≤ (ofInt n).magnitude := by
    rw [ofInt, magnitude_ofRatio]
    simp only [BinaryFormat.round, if_neg hpos, hscale]
    refine le_min (by decide) ?_
    change _ ≤ (e + 1074).toNat * 2 ^ 52 + _
    omega
  have hfield : 1075 ≤ exponentField (ofInt n).magnitude := by
    rw [exponentField, Nat.le_div_iff_mul_le (by positivity)]
    exact hmag
  rw [denominator, scale, scaleOf]
  have hzero : (-(((max (exponentField (ofInt n).magnitude) 1 : Nat) : Int) - 1075)).toNat = 0 := by omega
  rw [hzero, pow_zero]

/-- An integer that is left when the fraction of its nearest number is cut off is that number. -/
theorem is_ofInt_of_truncated (hfinite : (ofInt n).isFinite = true) (h : (ofInt n).truncated = n) : (ofInt n).Is n := by
  by_cases hsmall : n.natAbs < 2 ^ 53
  · exact is_ofInt hsmall
  · have hden := denominator_ofInt (n := n) (by omega)
    refine ⟨hfinite, ?_⟩
    rw [truncated, hden, Nat.div_one] at h
    rw [hden, Nat.cast_one, mul_one]
    exact h

theorem narrow_mem (lo hi : Int) (hle : lo ≤ hi) (h0 : lo ≤ 0) (h1 : 0 ≤ hi) (x : Double) :
    lo ≤ narrow lo hi x ∧ narrow lo hi x ≤ hi := by
  unfold narrow clamp
  split_ifs <;> omega

theorem Is.narrow (h : x.Is n) (hlo : lo ≤ n) (hhi : n ≤ hi) : narrow lo hi x = n := by
  have hlt : x.magnitude < infinite := of_decide_eq_true h.1
  have hnan : x.isNaN = false := decide_eq_false (by omega)
  have hinf : x.isInfinite = false := decide_eq_false (by omega)
  rw [Double.narrow, hnan, hinf, if_neg Bool.false_ne_true, if_neg Bool.false_ne_true, h.truncated, clamp,
    min_eq_right hhi, max_eq_right hlo]

/-- What narrowing gives back below the upper bound was not rounded. -/
theorem is_of_narrow (hi : Int) (hle : lo ≤ hi) (hlo : (ofInt lo).Is lo) (hhi : n ≠ hi)
    (h : narrow lo hi (ofInt n) = n) : (ofInt n).Is n := by
  unfold narrow at h
  have hnan : (ofInt n).isNaN = false := isNaN_ofRatio _ _ _
  rw [hnan, if_neg Bool.false_ne_true] at h
  by_cases hinf : (ofInt n).isInfinite = true
  · rw [if_pos hinf] at h
    split at h
    · exact h ▸ hlo
    · exact absurd h.symm hhi
  · have hfinite : (ofInt n).isFinite = true := isFinite_of_not hnan (by simpa using hinf)
    rw [if_neg hinf, clamp] at h
    by_cases hbelow : (ofInt n).truncated < lo
    · have : n = lo := by omega
      exact this ▸ hlo
    · exact is_ofInt_of_truncated hfinite (by omega)

theorem toInt32_ofInt (n : Int32) : (ofInt n.toInt).toInt32 = n := by
  have hlo := n.le_toInt
  have hhi := n.toInt_lt
  have hexact : (ofInt n.toInt).Is n.toInt := is_ofInt (by omega)
  rw [toInt32, hexact.narrow hlo (by omega), Int32.ofInt_toInt]

/-- An integer of 64 bits comes back if some number is that integer, and the greatest one always does. -/
theorem toInt64_ofInt (n : Int64) :
    (ofInt n.toInt).toInt64 = n ↔ (∃ x : Double, x.Is n.toInt) ∨ n = Int64.maxValue := by
  have hlo := n.le_toInt
  have hhi := n.toInt_lt
  constructor
  · intro h
    by_cases hmax : n = Int64.maxValue
    · exact .inr hmax
    have hmem := narrow_mem (-2 ^ 63) (2 ^ 63 - 1) (by decide) (by decide) (by decide) (ofInt n.toInt)
    have hvalue : narrow (-2 ^ 63) (2 ^ 63 - 1) (ofInt n.toInt) = n.toInt := by
      rw [← Int64.toInt_ofInt_of_le hmem.1 (by omega)]
      exact congrArg Int64.toInt h
    refine .inl ⟨_, is_of_narrow (2 ^ 63 - 1) (by decide) ?_ ?_ hvalue⟩
    · unfold Is
      decide +kernel
    · intro heq
      exact hmax (Int64.toInt_inj.1 heq)
  · rintro (⟨x, hx⟩ | rfl)
    · rw [toInt64, hx.ofInt.narrow hlo (by omega), Int64.ofInt_toInt]
    · decide +kernel

end ScriptBridge.Double
