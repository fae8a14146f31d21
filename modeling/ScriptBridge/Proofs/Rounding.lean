import Mathlib.Algebra.Order.Field.Power
import Mathlib.Data.Nat.Log
import Mathlib.Data.Rat.Cast.Order
import Mathlib.Tactic.FieldSimp
import Mathlib.Tactic.Linarith
import Mathlib.Tactic.NormNum
import Mathlib.Tactic.Positivity
import Mathlib.Tactic.Ring
import ScriptBridge.Double.Shortest

/-! Rounding of fractions depends on the value of a fraction and not on how it is written, and a fraction
that is a floating-point number already is not changed by it. -/
namespace ScriptBridge

theorem roundDiv_mul_left {k : Nat} (hk : 0 < k) (n d : Nat) : roundDiv (k * n) (k * d) = roundDiv n d := by
  have hlt (a b : Nat) : 2 * (k * a) < k * b ↔ 2 * a < b := by
    rw [Nat.mul_left_comm, Nat.mul_lt_mul_left hk]
  have hgt (a b : Nat) : k * b < 2 * (k * a) ↔ b < 2 * a := by
    rw [Nat.mul_left_comm, Nat.mul_lt_mul_left hk]
  simp only [roundDiv, Nat.mul_div_mul_left n d hk, Nat.mul_mod_mul_left, hlt, hgt]

/-- Equal fractions round to the same integer. -/
theorem roundDiv_congr {n d n' d' : Nat} (hd : 0 < d) (hd' : 0 < d') (h : n * d' = n' * d) :
    roundDiv n d = roundDiv n' d' := by
  rw [← roundDiv_mul_left hd' n d, ← roundDiv_mul_left hd n' d', Nat.mul_comm d' n, h, Nat.mul_comm n' d,
    Nat.mul_comm d' d]

@[simp] theorem roundDiv_one (n : Nat) : roundDiv n 1 = n := by simp [roundDiv, Nat.mod_one]

theorem roundDiv_eq_zero {n d : Nat} (h : 2 * n < d) : roundDiv n d = 0 := by
  simp [roundDiv, Nat.div_eq_of_lt (by omega : n < d), Nat.mod_eq_of_lt (by omega : n < d), h]

theorem le_roundDiv (n d : Nat) : n / d ≤ roundDiv n d := by
  unfold roundDiv
  dsimp only
  split_ifs <;> omega

namespace BinaryFormat

variable {f : BinaryFormat}

theorem shifted_pos {den : Nat} (hd : 0 < den) (num : Nat) (e : Int) : 0 < (shifted num den e).2 :=
  Nat.mul_pos hd (Nat.two_pow_pos _)

/-- Shifting a fraction divides it by the power of two. -/
theorem shifted_value (num den : Nat) (e : Int) :
    ((shifted num den e).1 : ℚ) / (shifted num den e).2 = (num : ℚ) / den / 2 ^ e := by
  obtain ⟨k, rfl | rfl⟩ := e.eq_nat_or_neg
  · simp [shifted, div_div]
  · simp only [shifted, neg_neg, Int.toNat_natCast, Nat.cast_mul, Nat.cast_pow, Nat.cast_ofNat, zpow_neg,
      zpow_natCast, div_inv_eq_mul, Int.toNat_neg_natCast, pow_zero, mul_one]
    rw [div_mul_eq_mul_div]

private theorem value_bounds {n : Nat} (hn : n ≠ 0) :
    (2 : ℚ) ^ (n.log2 : Int) ≤ n ∧ (n : ℚ) < 2 ^ ((n.log2 : Int) + 1) := by
  constructor
  · exact_mod_cast Nat.log2_self_le hn
  · exact_mod_cast (Nat.lt_log2_self : n < 2 ^ (n.log2 + 1))

private theorem ratio_bounds {num den : Nat} (hn : num ≠ 0) (hd : den ≠ 0) :
    (2 : ℚ) ^ ((num.log2 : Int) - den.log2 - 1) ≤ (num : ℚ) / den ∧
      (num : ℚ) / den < 2 ^ ((num.log2 : Int) - den.log2 + 1) := by
  obtain ⟨hn₁, hn₂⟩ := value_bounds hn
  obtain ⟨hd₁, hd₂⟩ := value_bounds hd
  have hden : (0 : ℚ) < den := by exact_mod_cast Nat.pos_of_ne_zero hd
  constructor
  · rw [le_div_iff₀ hden]
    calc (2 : ℚ) ^ ((num.log2 : Int) - den.log2 - 1) * den
        ≤ 2 ^ ((num.log2 : Int) - den.log2 - 1) * 2 ^ ((den.log2 : Int) + 1) := by gcongr
      _ = 2 ^ (num.log2 : Int) := by rw [← zpow_add₀ two_ne_zero]; congr 1; omega
      _ ≤ num := hn₁
  · rw [div_lt_iff₀ hden]
    calc (num : ℚ) < 2 ^ ((num.log2 : Int) + 1) := hn₂
      _ = 2 ^ ((num.log2 : Int) - den.log2 + 1) * 2 ^ (den.log2 : Int) := by
        rw [← zpow_add₀ two_ne_zero]; congr 1; omega
      _ ≤ 2 ^ ((num.log2 : Int) - den.log2 + 1) * den := by gcongr

/-- A shifted fraction lies below a power of two when the fraction lies below the power shifted back. -/
theorem shifted_div_lt (num : Nat) {den : Nat} (hd : den ≠ 0) (e : Int) (k : Nat) :
    (shifted num den e).1 / (shifted num den e).2 < 2 ^ k ↔ (num : ℚ) / den < 2 ^ (e + k) := by
  have hpos := shifted_pos (Nat.pos_of_ne_zero hd) num e
  have hcast : ((shifted num den e).1 / (shifted num den e).2 < 2 ^ k) ↔
      ((shifted num den e).1 : ℚ) / (shifted num den e).2 < 2 ^ k := by
    rw [Nat.div_lt_iff_lt_mul hpos, div_lt_iff₀ (by exact_mod_cast hpos)]
    exact_mod_cast Iff.rfl
  rw [hcast, shifted_value, div_lt_iff₀ (by positivity), ← zpow_natCast, ← zpow_add₀ two_ne_zero, add_comm]

/-- The unit of a positive fraction is the smallest one, or it is the one whose multiples of full precision
bound the fraction. -/
theorem unitScale_spec {num den : Nat} (hn : num ≠ 0) (hd : den ≠ 0) :
    ∃ e : Int, f.unitScale num den = max f.minScale e ∧
      (2 : ℚ) ^ (e + (f.precision - 1 : Nat)) ≤ (num : ℚ) / den ∧
      (num : ℚ) / den < 2 ^ (e + (f.precision - 1 : Nat) + 1) := by
  obtain ⟨hlow, hhigh⟩ := ratio_bounds hn hd
  unfold unitScale
  dsimp only
  have hiff := shifted_div_lt num hd ((num.log2 : Int) - den.log2 - (f.precision - 1 : Nat))
    (f.precision - 1)
  rw [sub_add_cancel] at hiff
  by_cases h : (num : ℚ) / den < 2 ^ ((num.log2 : Int) - den.log2)
  · rw [if_pos (hiff.2 h)]
    refine ⟨_, rfl, ?_, ?_⟩
    · rwa [sub_right_comm, sub_add_cancel]
    · rwa [sub_add_eq_add_sub, sub_add_cancel, sub_add_cancel]
  · rw [if_neg (mt hiff.1 h)]
    refine ⟨_, rfl, ?_, ?_⟩
    · rw [sub_add_cancel]
      exact not_lt.1 h
    · rwa [sub_add_cancel]

private theorem exponent_unique {q : ℚ} {a b : Int} (ha : (2 : ℚ) ^ a ≤ q) (ha' : q < 2 ^ (a + 1))
    (hb : (2 : ℚ) ^ b ≤ q) (hb' : q < 2 ^ (b + 1)) : a = b := by
  have hab := (zpow_lt_zpow_iff_right₀ (one_lt_two : (1 : ℚ) < 2)).1 (ha.trans_lt hb')
  have hba := (zpow_lt_zpow_iff_right₀ (one_lt_two : (1 : ℚ) < 2)).1 (hb.trans_lt ha')
  omega

/-- Equal fractions are rounded in the same unit. -/
theorem unitScale_eq {num den : Nat} (hn : num ≠ 0) (hd : den ≠ 0) {e : Int}
    (hlow : (2 : ℚ) ^ (e + (f.precision - 1 : Nat)) ≤ (num : ℚ) / den)
    (hhigh : (num : ℚ) / den < 2 ^ (e + (f.precision - 1 : Nat) + 1)) :
    f.unitScale num den = max f.minScale e := by
  obtain ⟨e', he', hlow', hhigh'⟩ := unitScale_spec (f := f) hn hd
  have := exponent_unique hlow hhigh hlow' hhigh'
  rw [he']
  congr 1
  omega

/-- Equal fractions round to the same magnitude. -/
theorem round_congr {n d n' d' : Nat} (hd : d ≠ 0) (hd' : d' ≠ 0) (h : n * d' = n' * d) :
    f.round n d = f.round n' d' := by
  by_cases hn : n = 0
  · have hn' : n' = 0 := by simpa [hn, hd] using h.symm
    simp [round, hn, hn']
  have hn' : n' ≠ 0 := by
    rintro rfl
    simp [hn, hd'] at h
  have hq : (n : ℚ) / d = n' / d' := by
    rw [div_eq_div_iff (by exact_mod_cast hd) (by exact_mod_cast hd')]
    exact_mod_cast h
  obtain ⟨e, he, hlow, hhigh⟩ := unitScale_spec (f := f) hn hd
  have he' : f.unitScale n' d' = f.unitScale n d := by
    rw [he]
    exact unitScale_eq hn' hd' (hq ▸ hlow) (hq ▸ hhigh)
  simp only [round, if_neg hn, if_neg hn', he']
  congr 2
  apply roundDiv_congr (shifted_pos (Nat.pos_of_ne_zero hd) _ _) (shifted_pos (Nat.pos_of_ne_zero hd') _ _)
  simp only [shifted]
  calc n * 2 ^ (-f.unitScale n d).toNat * (d' * 2 ^ (f.unitScale n d).toNat)
      = n * d' * (2 ^ (-f.unitScale n d).toNat * 2 ^ (f.unitScale n d).toNat) := by ring
    _ = n' * d * (2 ^ (-f.unitScale n d).toNat * 2 ^ (f.unitScale n d).toNat) := by rw [h]
    _ = _ := by ring

/-- Fractions far below the smallest unit round to zero. -/
theorem round_double_eq_zero {num den : Nat} (hd : den ≠ 0) (h : (num : ℚ) / den < 2 ^ (-1076 : Int)) :
    double.round num den = 0 := by
  by_cases hn : num = 0
  · simp [round, hn]
  obtain ⟨e, he, hlow, -⟩ := unitScale_spec (f := double) hn hd
  have he' : e + 52 < -1076 := (zpow_lt_zpow_iff_right₀ (one_lt_two : (1 : ℚ) < 2)).1 (hlow.trans_lt h)
  have hunit : double.unitScale num den = -1074 := by
    rw [he]
    exact max_eq_left (by simp only [double]; omega)
  have hsmall : roundDiv (shifted num den (-1074)).1 (shifted num den (-1074)).2 = 0 := by
    apply roundDiv_eq_zero
    have hpos := shifted_pos (Nat.pos_of_ne_zero hd) num (-1074)
    have hvalue : ((shifted num den (-1074)).1 : ℚ) / (shifted num den (-1074)).2 < 1 / 2 := by
      rw [shifted_value, div_lt_iff₀ (by positivity)]
      calc (num : ℚ) / den < 2 ^ (-1075 : Int) :=
            h.trans (zpow_lt_zpow_right₀ one_lt_two (by norm_num))
        _ = 1 / 2 * 2 ^ (-1074 : Int) := by
            rw [show (-1075 : Int) = -1 + -1074 by norm_num, zpow_add₀ two_ne_zero, zpow_neg_one, one_div]
    rw [div_lt_iff₀ (by exact_mod_cast hpos)] at hvalue
    have : (2 : ℚ) * (shifted num den (-1074)).1 < (shifted num den (-1074)).2 := by linarith
    exact_mod_cast this
  simp only [round, if_neg hn, hunit, hsmall]
  simp [double]

/-- Fractions beyond the largest number round to the infinity. -/
theorem round_double_eq_infinite {num den : Nat} (hn : num ≠ 0) (hd : den ≠ 0)
    (h : (2 : ℚ) ^ (1024 : Int) ≤ (num : ℚ) / den) : double.round num den = Double.infinite := by
  obtain ⟨e, he, hlow, hhigh⟩ := unitScale_spec (f := double) hn hd
  have he' : 1024 < e + 52 + 1 := (zpow_lt_zpow_iff_right₀ (one_lt_two : (1 : ℚ) < 2)).1 (h.trans_lt hhigh)
  have hunit : double.unitScale num den = e := by
    rw [he]
    exact max_eq_right (by simp only [double]; omega)
  have hfull : 2 ^ 52 ≤ roundDiv (shifted num den e).1 (shifted num den e).2 := by
    refine le_trans ?_ (le_roundDiv _ _)
    exact not_lt.1 (mt (shifted_div_lt num hd e 52).1 (not_lt.2 hlow))
  simp only [round, if_neg hn, hunit]
  refine min_eq_left ?_
  have hfield : 2046 ≤ (e - double.minScale).toNat := by simp only [double]; omega
  calc double.infinite = 2046 * 2 ^ 52 + 2 ^ 52 := by simp [double, Double.infinite]
    _ ≤ (e - double.minScale).toNat * 2 ^ (double.precision - 1) + _ :=
      Nat.add_le_add (Nat.mul_le_mul_right _ hfield) hfull

end BinaryFormat

namespace Double

/-- The absolute value of a finite number. -/
theorem ratio_eq (x : Double) : (x.numerator : ℚ) / x.denominator = x.significand * 2 ^ x.scale := by
  unfold numerator denominator
  obtain ⟨k, hk | hk⟩ := x.scale.eq_nat_or_neg <;> simp [hk, div_eq_mul_inv]

theorem significand_lt (x : Double) : x.significand < 2 ^ 53 := by
  unfold significand significandOf
  split <;> omega

private theorem scale_ge (x : Double) : -1074 ≤ x.scale := by
  unfold scale scaleOf
  omega

/-- A finite number is rounded in its own unit. -/
private theorem unitScale_self (x : Double) (h0 : x.significand ≠ 0) :
    BinaryFormat.double.unitScale x.numerator x.denominator = x.scale := by
  have hnum : x.numerator ≠ 0 := Nat.mul_ne_zero h0 (Nat.two_pow_pos _).ne'
  have hden : x.denominator ≠ 0 := (Nat.two_pow_pos _).ne'
  have hupper : (x.numerator : ℚ) / x.denominator < 2 ^ (x.scale + 52 + 1) := by
    rw [ratio_eq, add_assoc, zpow_add₀ two_ne_zero, mul_comm]
    refine mul_lt_mul_of_pos_left ?_ (by positivity)
    exact_mod_cast significand_lt x
  by_cases hfield : exponentField x.magnitude = 0
  · have hscale : x.scale = -1074 := by simp [scale, scaleOf, hfield]
    obtain ⟨e, he, hlow, -⟩ := BinaryFormat.unitScale_spec (f := .double) hnum hden
    have := (zpow_lt_zpow_iff_right₀ (one_lt_two : (1 : ℚ) < 2)).1 (hlow.trans_lt hupper)
    rw [he, hscale]
    refine max_eq_left ?_
    simp only [BinaryFormat.double] at this ⊢
    omega
  · have hsig : 2 ^ 52 ≤ x.significand := by
      simp [significand, significandOf, hfield]
    have hlower : (2 : ℚ) ^ (x.scale + 52) ≤ (x.numerator : ℚ) / x.denominator := by
      rw [ratio_eq, zpow_add₀ two_ne_zero, mul_comm]
      refine mul_le_mul_of_nonneg_right ?_ (by positivity)
      exact_mod_cast hsig
    have hprec : ((BinaryFormat.double.precision - 1 : Nat) : Int) = 52 := rfl
    rw [BinaryFormat.unitScale_eq hnum hden (by rwa [hprec]) (by rwa [hprec])]
    exact max_eq_right (scale_ge x)

theorem isFinite_of_not {x : Double} (hnan : x.isNaN = false) (hinf : x.isInfinite = false) : x.isFinite = true := by
  have hne : x.magnitude ≠ infinite := of_decide_eq_false hinf
  have hnot : ¬ infinite < x.magnitude := of_decide_eq_false hnan
  exact decide_eq_true (by omega)

/-- A finite number rounds to itself. -/
theorem round_self {x : Double} (hx : x.isFinite = true) :
    BinaryFormat.double.round x.numerator x.denominator = x.magnitude := by
  have hlt : x.magnitude < infinite := of_decide_eq_true hx
  by_cases h0 : x.significand = 0
  · have hmag : x.magnitude = 0 := by
      unfold significand significandOf exponentField at h0
      split at h0 <;> omega
    simp [BinaryFormat.round, numerator, h0, hmag]
  have hnum : x.numerator ≠ 0 := Nat.mul_ne_zero h0 (Nat.two_pow_pos _).ne'
  have hexact : roundDiv (BinaryFormat.shifted x.numerator x.denominator x.scale).1
      (BinaryFormat.shifted x.numerator x.denominator x.scale).2 = x.significand := by
    have hden : 0 < x.denominator := Nat.two_pow_pos _
    refine (roundDiv_congr (BinaryFormat.shifted_pos hden _ _) Nat.one_pos ?_).trans (roundDiv_one _)
    simp only [BinaryFormat.shifted, numerator, denominator]
    ring
  have hfields : (x.scale + 1074).toNat * 2 ^ 52 + x.significand = x.magnitude := by
    unfold scale scaleOf significand significandOf
    have := Nat.div_add_mod x.magnitude (2 ^ 52)
    split <;> rename_i h <;> unfold exponentField at h ⊢ <;> omega
  simp only [BinaryFormat.round, if_neg hnum, unitScale_self x h0, hexact]
  change min infinite ((x.scale + 1074).toNat * 2 ^ 52 + x.significand) = x.magnitude
  rw [hfields]
  exact min_eq_right hlt.le

end Double
end ScriptBridge
