import ScriptBridge.Proofs.Decimals
import ScriptBridge.Script.Coercion

/-! Whole numbers. Below `2 ^ 53` every one of them is a floating-point number of its own, and handles are
written and read as the digits that they have. -/
namespace ScriptBridge.Double

open ScriptBridge.Text (decimal)

theorem magnitude_ofParts (negative : Bool) {m : Nat} (hm : m < 2 ^ 63) : (ofParts negative m).magnitude = m := by
  rw [ofParts, magnitude, UInt64.toNat_ofNat']
  split <;> omega

theorem negative_ofParts (negative : Bool) {m : Nat} (hm : m < 2 ^ 63) : (ofParts negative m).negative = negative := by
  rw [ofParts, Double.negative, UInt64.toNat_ofNat']
  cases negative <;> simp only [if_true, Bool.false_eq_true, if_false, decide_eq_true_eq, decide_eq_false_iff_not] <;>
    omega

private theorem infinite_lt : infinite < 2 ^ 63 := by decide

theorem round_le (f : BinaryFormat) (num den : Nat) : f.round num den ≤ f.infinite := by
  unfold BinaryFormat.round
  split
  · exact Nat.zero_le _
  · exact Nat.min_le_left _ _

theorem magnitude_ofRatio (negative : Bool) (num den : Nat) :
    (ofRatio negative num den).magnitude = BinaryFormat.double.round num den :=
  magnitude_ofParts _ ((round_le _ num den).trans_lt infinite_lt)

theorem negative_ofRatio (negative : Bool) (num den : Nat) : (ofRatio negative num den).negative = negative :=
  negative_ofParts _ ((round_le _ num den).trans_lt infinite_lt)

theorem isNaN_ofRatio (negative : Bool) (num den : Nat) : (ofRatio negative num den).isNaN = false :=
  decide_eq_false (by
    have := round_le .double num den
    rw [magnitude_ofRatio]
    exact Nat.not_lt.2 this)

/-- The magnitude of a whole number: its leading bit gives the exponent, the other bits the fraction. -/
private def wholeMagnitude (n : Nat) : Nat := (n.log2 + 1022) * 2 ^ 52 + n * 2 ^ (52 - n.log2)

private theorem wholeMagnitude_fields {n : Nat} (hn : n ≠ 0) (hlt : n < 2 ^ 53) :
    n.log2 ≤ 52 ∧ 2 ^ 52 ≤ n * 2 ^ (52 - n.log2) ∧ n * 2 ^ (52 - n.log2) < 2 ^ 53 := by
  have hlog : n.log2 ≤ 52 := Nat.lt_succ_iff.1 ((Nat.log2_lt hn).2 hlt)
  have hlow : 2 ^ n.log2 ≤ n := Nat.log2_self_le hn
  have hhigh : n < 2 ^ (n.log2 + 1) := Nat.lt_log2_self
  refine ⟨hlog, ?_, ?_⟩
  · calc 2 ^ 52 = 2 ^ n.log2 * 2 ^ (52 - n.log2) := by rw [← pow_add, Nat.add_sub_cancel' hlog]
      _ ≤ n * 2 ^ (52 - n.log2) := Nat.mul_le_mul_right _ hlow
  · calc n * 2 ^ (52 - n.log2) < 2 ^ (n.log2 + 1) * 2 ^ (52 - n.log2) :=
          Nat.mul_lt_mul_of_pos_right hhigh (Nat.two_pow_pos _)
      _ = 2 ^ 53 := by rw [← pow_add]; congr 1; omega

private theorem ofNat_eq {n : Nat} (hn : n ≠ 0) (hlt : n < 2 ^ 53) : ofNat n = ofParts false (wholeMagnitude n) ∧
    (ofNat n).isFinite = true ∧ (ofNat n).numerator = n * (ofNat n).denominator := by
  obtain ⟨hlog, hlow, hhigh⟩ := wholeMagnitude_fields hn hlt
  have hmag : (ofParts false (wholeMagnitude n)).magnitude = wholeMagnitude n :=
    magnitude_ofParts _ (by unfold wholeMagnitude; omega)
  have hfinite : (ofParts false (wholeMagnitude n)).isFinite = true := by
    rw [isFinite, hmag, decide_eq_true_eq]
    unfold wholeMagnitude infinite
    omega
  have hfield : exponentField (wholeMagnitude n) = n.log2 + 1023 := by
    unfold exponentField wholeMagnitude
    omega
  have hscale : (ofParts false (wholeMagnitude n)).scale = n.log2 - 52 := by
    rw [scale, hmag, scaleOf, hfield]
    omega
  have hsig : (ofParts false (wholeMagnitude n)).significand = n * 2 ^ (52 - n.log2) := by
    rw [significand, hmag, significandOf, hfield, if_neg (by omega)]
    unfold wholeMagnitude
    omega
  have hnum : (ofParts false (wholeMagnitude n)).numerator = n * (ofParts false (wholeMagnitude n)).denominator := by
    have h0 : ((n.log2 : Int) - 52).toNat = 0 := by omega
    have h1 : (-((n.log2 : Int) - 52)).toNat = 52 - n.log2 := by omega
    rw [numerator, denominator, hsig, hscale, h0, h1, pow_zero, mul_one]
  have heq : ofNat n = ofParts false (wholeMagnitude n) := by
    have hround := round_self hfinite
    rw [hmag] at hround
    rw [ofNat, ofRatio, ← hround]
    congr 1
    refine BinaryFormat.round_congr Nat.one_ne_zero (Nat.two_pow_pos _).ne' ?_
    rw [mul_one, hnum]
  rw [heq]
  exact ⟨rfl, hfinite, hnum⟩

/-- A whole number below `2 ^ 53` is exact. -/
theorem ofNat_exact {n : Nat} (hlt : n < 2 ^ 53) :
    (ofNat n).isFinite = true ∧ (ofNat n).numerator = n * (ofNat n).denominator := by
  rcases Nat.eq_zero_or_pos n with rfl | hn
  · have hsig : (ofNat 0).significand = 0 := by decide
    exact ⟨by decide, by rw [numerator, hsig, Nat.zero_mul, Nat.zero_mul]⟩
  · exact (ofNat_eq hn.ne' hlt).2

theorem ofNat_injective {m n : Nat} (hm : m < 2 ^ 53) (hn : n < 2 ^ 53) (h : ofNat m = ofNat n) : m = n := by
  have hvalue := (ofNat_exact hm).2
  rw [h, (ofNat_exact hn).2] at hvalue
  exact (Nat.eq_of_mul_eq_mul_right (Nat.two_pow_pos _) hvalue).symm

private theorem wholeMagnitude_lt {m n : Nat} (hm : m ≠ 0) (hmn : m < n) (hn : n < 2 ^ 53) :
    wholeMagnitude m < wholeMagnitude n := by
  obtain ⟨-, -, hhigh⟩ := wholeMagnitude_fields hm (hmn.trans hn)
  obtain ⟨-, hlow, -⟩ := wholeMagnitude_fields (n := n) (by omega) hn
  have hlog : m.log2 ≤ n.log2 := by
    by_contra hlog
    have := Nat.log2_self_le hm
    have := (Nat.pow_le_pow_right (by decide : 0 < 2) (show n.log2 + 1 ≤ m.log2 by omega)).trans this
    have := Nat.lt_log2_self (n := n)
    omega
  unfold wholeMagnitude
  rcases Nat.eq_or_lt_of_le hlog with hlog | hlog
  · rw [hlog]
    have := Nat.mul_lt_mul_of_pos_right hmn (Nat.two_pow_pos (52 - n.log2))
    omega
  · omega

/-- Whole numbers below `2 ^ 53` have the order that they have as integers. -/
theorem ofNat_less {m n : Nat} (hm : m < 2 ^ 53) (hn : n < 2 ^ 53) : (ofNat m).less (ofNat n) = decide (m < n) := by
  have hrank {k : Nat} (hk : k < 2 ^ 53) : (ofNat k).rank = if k = 0 then 0 else (wholeMagnitude k : Int) := by
    have hneg : (ofNat k).negative = false := negative_ofRatio _ _ _
    have hmag : (ofNat k).magnitude = if k = 0 then 0 else wholeMagnitude k := by
      split
      · rename_i h0
        rw [h0, ofNat, magnitude_ofRatio]
        rfl
      · rename_i h0
        have := (wholeMagnitude_fields h0 hk).1
        have := (wholeMagnitude_fields h0 hk).2.2
        rw [(ofNat_eq h0 hk).1, magnitude_ofParts]
        unfold wholeMagnitude
        omega
    rw [rank, hneg, if_neg Bool.false_ne_true, hmag]
    split <;> simp
  have hpos {k : Nat} (hk : k ≠ 0) : (0 : Int) < wholeMagnitude k := by
    unfold wholeMagnitude
    positivity
  rw [less, hrank hm, hrank hn, ofNat, ofNat, isNaN_ofRatio, isNaN_ofRatio]
  simp only [Bool.not_false, Bool.true_and]
  congr 1
  split_ifs with h0 h1 h1
  · simp [h0, h1]
  · simp only [hpos h1, h0, true_iff, eq_iff_iff]
    exact Nat.pos_of_ne_zero h1
  · have := hpos h0
    simp only [eq_iff_iff]
    omega
  · simp only [eq_iff_iff, Nat.cast_lt]
    refine ⟨fun h => ?_, fun h => wholeMagnitude_lt h0 h hn⟩
    by_contra hle
    rcases Nat.eq_or_lt_of_le (Nat.le_of_not_lt hle) with rfl | hlt
    · omega
    · have := wholeMagnitude_lt h1 hlt hm
      omega

/-- Numbers that are the same have one place in the order of the numbers. -/
theorem rank_eq_of_same {x y : Double} (hsame : x.same y = true) : x.rank = y.rank := by
  simp only [same, Bool.and_eq_true, Bool.or_eq_true, decide_eq_true_eq] at hsame
  rcases hsame.2 with hbits | ⟨hx, hy⟩
  · rw [rank, rank, negative, negative, magnitude, magnitude, hbits]
  · have hzero {z : Double} (hz : z.isZero = true) : z.rank = 0 := by
      simp [rank, of_decide_eq_true hz]
    rw [hzero hx, hzero hy]

theorem eq_of_same_ofNat {m n : Nat} (hm : m < 2 ^ 53) (hn : n < 2 ^ 53) (hsame : (ofNat m).same (ofNat n) = true) :
    m = n := by
  have hrank := rank_eq_of_same hsame
  have hle {k l : Nat} (hk : k < 2 ^ 53) (hl : l < 2 ^ 53) (h : (ofNat k).rank = (ofNat l).rank) : ¬k < l := by
    have hless := ofNat_less hk hl
    simp only [less, h, Int.lt_irrefl, decide_false, Bool.and_false] at hless
    exact of_decide_eq_false hless.symm
  exact Nat.le_antisymm (Nat.le_of_not_lt (hle hn hm hrank.symm)) (Nat.le_of_not_lt (hle hm hn hrank))

/-- Whole decimals that round to one magnitude are the same number. -/
private theorem eq_of_decimalMagnitude {d k n : Nat} (hd : d * 10 ^ k < 2 ^ 53) (hn : n < 2 ^ 53)
    (h : decimalMagnitude d k = (ofNat n).magnitude) : d * 10 ^ k = n := by
  refine ofNat_injective hd hn ?_
  rw [ofNat, magnitude_ofRatio] at h
  simp only [decimalMagnitude, Int.toNat_natCast, Int.toNat_neg_natCast, pow_zero] at h
  rw [ofNat, ofNat, ofRatio, ofRatio, h]

end ScriptBridge.Double

namespace ScriptBridge.Text

/-- One more digit behind a numeral. -/
theorem decimal_mul_ten_add {n d : Nat} (hn : n ≠ 0) (hd : d < 10) :
    decimal (n * 10 + d) = decimal n ++ [Nat.digitChar d] := by
  rw [decimal, if_neg (by omega), show (n * 10 + d) / 10 = n by omega, show (n * 10 + d) % 10 = d by omega]

theorem decimal_mul_pow {n : Nat} (hn : n ≠ 0) (k : Nat) :
    decimal (n * 10 ^ k) = decimal n ++ List.replicate k '0' := by
  induction k with
  | zero => simp
  | succ k ih =>
    have hzero := decimal_mul_ten_add (Nat.mul_ne_zero hn (by positivity : 10 ^ k ≠ 0)) (by decide : 0 < 10)
    rw [Nat.add_zero, ih, List.append_assoc] at hzero
    rw [pow_succ, ← mul_assoc, hzero, List.replicate_succ']
    rfl

/-- Numerals have no leading zeros. -/
theorem decimal_head {n : Nat} (hn : n ≠ 0) : ∀ c ∈ (decimal n).head?, c ≠ '0' := by
  fun_induction decimal n with
  | case1 n h =>
    intro c hc
    obtain rfl := Option.some.inj hc
    exact mt Nat.digitChar_eq_zero.1 hn
  | case2 n h ih =>
    rw [List.head?_append_of_ne_nil _ (decimal_ne_nil _)]
    exact ih (by omega)

theorem pow_lt_length_decimal {n : Nat} (hn : n ≠ 0) :
    10 ^ ((decimal n).length - 1) ≤ n ∧ n < 10 ^ (decimal n).length := by
  fun_induction decimal n with
  | case1 n h => exact ⟨Nat.one_le_iff_ne_zero.2 hn, by simpa using h⟩
  | case2 n h ih =>
    obtain ⟨hlow, hhigh⟩ := ih (by omega)
    have hlength : 0 < (decimal (n / 10)).length := List.length_pos_iff.2 (decimal_ne_nil _)
    obtain ⟨k, hk⟩ : ∃ k, (decimal (n / 10)).length = k + 1 := Nat.exists_eq_add_one.2 hlength
    rw [hk] at hlow hhigh
    simp only [List.length_append, List.length_singleton, hk, Nat.add_sub_cancel, pow_succ] at hlow hhigh ⊢
    omega

end ScriptBridge.Text

namespace ScriptBridge.Double

open ScriptBridge.Text (decimal)

private theorem roundDiv_mul_le (n d : Nat) : roundDiv n d * d ≤ n + d := by
  have hdiv : n / d * d ≤ n := Nat.div_mul_le_self n d
  have hround : roundDiv n d ≤ n / d + 1 := by
    unfold roundDiv
    dsimp only
    split_ifs <;> omega
  calc roundDiv n d * d ≤ (n / d + 1) * d := Nat.mul_le_mul_right _ hround
    _ ≤ n + d := by rw [Nat.succ_mul]; omega

private theorem roundDiv_ofNat {n : Nat} (hn : n < 2 ^ 53) (k : Nat) :
    roundDiv ((ofNat n).numerator * 10 ^ (-(k : Int)).toNat) ((ofNat n).denominator * 10 ^ (k : Int).toNat) =
      roundDiv n (10 ^ k) := by
  have hden : 0 < (ofNat n).denominator := Nat.two_pow_pos _
  simp only [Int.toNat_neg_natCast, Int.toNat_natCast, pow_zero, mul_one]
  refine roundDiv_congr (by positivity) (by positivity) ?_
  rw [(ofNat_exact hn).2]
  ring

private theorem onGrid?_whole {n : Nat} (hn : n < 2 ^ 32) {k : Nat} (hk : 10 ^ k ≤ n) {d : Nat}
    (h : onGrid? .rounded (ofNat n).magnitude (ofNat n).numerator (ofNat n).denominator k = some d) :
    d * 10 ^ k = n := by
  have hd : roundDiv n (10 ^ k) = d := by
    unfold onGrid? at h
    simp only [roundDiv_ofNat (hn.trans (by decide)) k] at h
    split at h
    · exact Option.some.inj h
    · cases h
  have hle := roundDiv_mul_le n (10 ^ k)
  rw [hd] at hle
  exact eq_of_decimalMagnitude (by omega) (hn.trans (by decide)) (onGrid?_reads h)

private theorem onGrid?_zero {n : Nat} (hn : n < 2 ^ 53) :
    onGrid? .rounded (ofNat n).magnitude (ofNat n).numerator (ofNat n).denominator (0 : Nat) = some n := by
  unfold onGrid?
  simp only [roundDiv_ofNat hn 0, pow_zero, roundDiv_one]
  refine if_pos (decide_eq_true ?_)
  rw [ofNat, magnitude_ofRatio]
  simp [decimalMagnitude]

/-- The search for the shortest decimal of a whole number ends with whole decimals of that number. -/
private theorem shortestFrom_whole {n point : Nat} (hn : n < 2 ^ 32) (hpoint : 10 ^ (point - 1) ≤ n) (fuel : Nat)
    {count : Nat} (hcount : 1 ≤ count) (hle : count ≤ point) (hfuel : point < count + fuel) :
    ∃ k : Nat, (shortestFrom .rounded (ofNat n) point fuel count).2 = k ∧
      (shortestFrom .rounded (ofNat n) point fuel count).1 * 10 ^ k = n := by
  induction fuel generalizing count with
  | zero => omega
  | succ fuel ih =>
    obtain ⟨k, hk⟩ : ∃ k, point = count + k := ⟨point - count, by omega⟩
    have he : (point : Int) - count = k := by omega
    simp only [shortestFrom, he]
    rcases hgrid : onGrid? .rounded (ofNat n).magnitude (ofNat n).numerator (ofNat n).denominator k with _ | d
    · rcases Nat.eq_zero_or_pos k with rfl | hpos
      · rw [onGrid?_zero (hn.trans (by decide))] at hgrid
        cases hgrid
      · exact ih (by omega) (by omega) (by omega)
    · have hpow : 10 ^ k ≤ n := (Nat.pow_le_pow_right (by decide) (by omega)).trans hpoint
      exact ⟨k, rfl, onGrid?_whole hn hpow hgrid⟩

private theorem withoutTrailingZeros_whole (d : Nat) (e : Int) :
    ∃ k : Nat, (withoutTrailingZeros d e).2 = e + k ∧ (withoutTrailingZeros d e).1 * 10 ^ k = d := by
  fun_induction withoutTrailingZeros d e with
  | case1 d e h ih =>
    obtain ⟨k, hk, hd⟩ := ih
    refine ⟨k + 1, by rw [hk]; push_cast; ring, ?_⟩
    rw [pow_succ, ← mul_assoc, hd]
    exact Nat.div_mul_cancel (Nat.dvd_of_mod_eq_zero h.1)
  | case2 d e h => exact ⟨0, by simp, by simp⟩

private theorem length_decimal_le {n : Nat} (hn : n < 2 ^ 32) (h0 : n ≠ 0) : (decimal n).length ≤ 10 := by
  by_contra hlong
  have hlow := (Text.pow_lt_length_decimal h0).1
  have := (Nat.pow_le_pow_right (by decide : 0 < 10) (show 10 ≤ (decimal n).length - 1 by omega)).trans hlow
  omega

private theorem placed_whole (d : Nat) {k : Nat} (h : (decimal d).length + k ≤ 10) :
    Layout.script.placed d k = decimal d ++ List.replicate k '0' := by
  have hlength : 0 < (decimal d).length := List.length_pos_iff.2 (Text.decimal_ne_nil d)
  have hk : (((decimal d).length : Int) + k - (decimal d).length).toNat = k := by omega
  rw [Layout.placed]
  dsimp only
  rw [if_pos ⟨by simp only [Layout.script]; omega, by simp only [Layout.script]; omega⟩, if_neg (by omega),
    if_pos (by omega), hk]
  exact List.append_nil _

private theorem shortest_whole {n : Nat} (hn : n < 2 ^ 32) (h0 : n ≠ 0) :
    ∃ k : Nat, ((ofNat n).shortest .rounded).2 = k ∧ ((ofNat n).shortest .rounded).1 * 10 ^ k = n := by
  have hlow := (Text.pow_lt_length_decimal h0).1
  have hlength := length_decimal_le hn h0
  have hpoint : decimalPoint (ofNat n).numerator (ofNat n).denominator = (decimal n).length := by
    have hden : 0 < (ofNat n).denominator := Nat.two_pow_pos _
    rw [decimalPoint, (ofNat_exact (hn.trans (by decide))).2, if_pos (Nat.le_mul_of_pos_left _ (Nat.pos_of_ne_zero h0)),
      Nat.mul_div_cancel _ hden]
  obtain ⟨k, hk, hfrom⟩ := shortestFrom_whole hn hlow 17 le_rfl
    (List.length_pos_iff.2 (Text.decimal_ne_nil n)) (by omega)
  obtain ⟨j, hj, htrim⟩ := withoutTrailingZeros_whole
    (shortestFrom .rounded (ofNat n) (decimal n).length 17 1).1 (shortestFrom .rounded (ofNat n) (decimal n).length 17 1).2
  refine ⟨k + j, ?_, ?_⟩
  · rw [shortest, hpoint, hj, hk]
    push_cast
    ring
  · rw [shortest, hpoint, add_comm, pow_add, ← mul_assoc, htrim, hfrom]

/-- The text that a script makes of a whole number has its digits and nothing else. -/
theorem ofNat_text {n : Nat} (hn : n < 2 ^ 32) : (ofNat n).text .script = decimal n := by
  rcases Nat.eq_zero_or_pos n with rfl | hpos
  · have hzero : decimal 0 = ['0'] := by rw [decimal, if_pos (by decide)]; rfl
    rw [hzero]
    rfl
  have hlt : n < 2 ^ 53 := hn.trans (by decide)
  have hfin : (ofNat n).magnitude < infinite := of_decide_eq_true (ofNat_exact hlt).1
  have hnan : (ofNat n).isNaN = false := isNaN_ofRatio _ _ _
  have hinf : (ofNat n).isInfinite = false := decide_eq_false (by omega)
  have hneg : (ofNat n).negative = false := negative_ofRatio _ _ _
  have hzero : (ofNat n).isZero = false := by
    refine decide_eq_false fun hmag => hpos.ne' (ofNat_injective hlt (by decide) ?_)
    rw [← ofParts_self (ofNat n), hneg, hmag]
    rfl
  obtain ⟨k, hk, hvalue⟩ := shortest_whole hn hpos.ne'
  have hd : ((ofNat n).shortest .rounded).1 ≠ 0 := by
    rintro h
    rw [h, Nat.zero_mul] at hvalue
    exact hpos.ne hvalue
  have hdigits : decimal n = decimal ((ofNat n).shortest .rounded).1 ++ List.replicate k '0' := by
    rw [← Text.decimal_mul_pow hd, hvalue]
  have hpoint : (decimal ((ofNat n).shortest .rounded).1).length + k ≤ 10 := by
    rw [← List.length_replicate (n := k) (a := '0'), ← List.length_append, ← hdigits]
    exact length_decimal_le hn hpos.ne'
  unfold text
  simp only [hnan, hinf, hzero, hneg, Bool.false_eq_true, if_false, Bool.false_and, List.nil_append]
  rw [show Layout.script.choice = .rounded from rfl, hk, placed_whole _ hpoint, hdigits]

end ScriptBridge.Double

namespace ScriptBridge.Script

open ScriptBridge.Text (decimal)

theorem Key.ofChars_decimal (n : Nat) : Key.ofChars (decimal n) = Key.ofNat n := by
  have hdigits : (decimal n).all Char.isDigit = true := List.all_eq_true.2 fun _ => Text.isDigit_of_mem_decimal
  unfold Key.ofNat
  split
  · rename_i hn
    simp [Key.ofChars, hdigits, Text.numeral_decimal, hn]
  · rfl

namespace Number

@[simp] theorem toDouble_ofDouble (x : Double) : (ofDouble x).toDouble = x := by
  unfold ofDouble
  dsimp only
  split
  · rename_i h
    exact h.symm
  · rfl

@[simp] theorem toDouble_ofInt (n : Int) : (ofInt n).toDouble = Double.ofInt n := by
  unfold ofInt
  split
  · rename_i h
    rw [toDouble, Int32.toInt_ofInt_of_le h.1 h.2]
  · rfl

@[simp] theorem toDouble_ofNat (n : Nat) : (ofNat n).toDouble = Double.ofNat n := by
  rw [ofNat, toDouble_ofInt, Double.ofInt, decide_eq_false (by omega), Int.natAbs_natCast, Double.ofNat]

private theorem toInt_of_ofInt {m : Int32} {n : Nat} (hn : n < 2 ^ 32) (h : Double.ofInt m.toInt = Double.ofNat n) :
    m.toInt = n := by
  have hneg : decide (m.toInt < 0) = false := by
    have := congrArg Double.negative h
    rwa [Double.ofInt, Double.ofNat, Double.negative_ofRatio, Double.negative_ofRatio] at this
  have hbound : m.toInt < 2 ^ 31 := m.toInt_lt
  have hnonneg := of_decide_eq_false hneg
  rw [Double.ofInt, hneg] at h
  have hnat : m.toInt.natAbs = n := Double.ofNat_injective (by omega) (hn.trans (by decide)) h
  omega

theorem text_of_toDouble {x : Number} {n : Nat} (hn : n < 2 ^ 32) (h : x.toDouble = Double.ofNat n) :
    x.text = decimal n := by
  cases x with
  | int m =>
    rw [text, toInt_of_ofInt hn h, Text.decimalInt, if_neg (by omega), Int.natAbs_natCast]
  | float y =>
    obtain rfl : y = Double.ofNat n := h
    exact Double.ofNat_text hn

private theorem ofNat_cases (n : Nat) :
    ofNat n = int (Int32.ofInt n) ∧ (Int32.ofInt n).toInt = n ∨ ofNat n = float (Double.ofNat n) := by
  have hnat : Double.ofInt (n : Int) = Double.ofNat n := by
    rw [Double.ofInt, decide_eq_false (by omega), Int.natAbs_natCast, Double.ofNat]
  by_cases hn : n < 2 ^ 31
  · have hroom : -2 ^ 31 ≤ (n : Int) ∧ (n : Int) < 2 ^ 31 := by omega
    exact .inl ⟨by rw [ofNat, ofInt, if_pos hroom], Int32.toInt_ofInt_of_le hroom.1 hroom.2⟩
  · have hroom : ¬(-2 ^ 31 ≤ (n : Int) ∧ (n : Int) < 2 ^ 31) := by omega
    exact .inr (by rw [ofNat, ofInt, if_neg hroom, hnat])

private theorem less_of_int (m n : Int32) : (int m).less (int n) = decide (m < n) := rfl

private theorem less_of_int_float (m : Int32) (y : Double) : (int m).less (float y) = (int m).toDouble.less y := by
  rw [less, toDouble, toDouble]
  rintro _ _ _ ⟨⟩

private theorem less_of_float (x : Double) (y : Number) : (float x).less y = x.less y.toDouble := by
  rw [less, toDouble]
  rintro _ _ ⟨⟩

theorem less_ofNat {m n : Nat} (hm : m < 2 ^ 53) (hn : n < 2 ^ 53) : (ofNat m).less (ofNat n) = decide (m < n) := by
  have hdouble := Double.ofNat_less hm hn
  rw [← toDouble_ofNat m, ← toDouble_ofNat n] at hdouble
  rcases ofNat_cases m with ⟨hmint, hmval⟩ | hmfloat
  · rcases ofNat_cases n with ⟨hnint, hnval⟩ | hnfloat
    · rw [hmint, hnint, less_of_int]
      simp only [Int32.lt_iff_toInt_lt, hmval, hnval, Nat.cast_lt]
    · rw [hnfloat, toDouble] at hdouble
      rw [hnfloat, hmint, less_of_int_float, ← hmint, hdouble]
  · rw [hmfloat, toDouble] at hdouble
    rw [hmfloat, less_of_float, hdouble]

private theorem same_cases {x y : Number} (hsame : x.same y = true) : x = y ∨ x.toDouble.same y.toDouble = true := by
  cases x <;> cases y <;> simp_all [same]

/-- Whole numbers are the same only where they are equal. -/
theorem eq_of_same_ofNat {m n : Nat} (hm : m < 2 ^ 53) (hn : n < 2 ^ 53) (hsame : (ofNat m).same (ofNat n) = true) :
    m = n := by
  rcases same_cases hsame with heq | hsame
  · exact Double.ofNat_injective hm hn (by rw [← toDouble_ofNat m, ← toDouble_ofNat n, heq])
  · rw [toDouble_ofNat, toDouble_ofNat] at hsame
    exact Double.eq_of_same_ofNat hm hn hsame

/-- Both zeros are written alike. -/
private theorem text_of_isZero {x : Double} (hx : x.isZero = true) : (float x).text = decimal 0 := by
  obtain ⟨bits⟩ := x
  have hmagnitude : bits.toNat % 2 ^ 63 = 0 := of_decide_eq_true hx
  have hbits : bits = 0 ∨ bits = 0x8000000000000000 := by
    rw [← UInt64.toNat_inj, ← UInt64.toNat_inj]
    have hlt := bits.toNat_lt
    change bits.toNat = 0 ∨ bits.toNat = 2 ^ 63
    omega
  rcases hbits with rfl | rfl <;> decide +kernel

/-- A number that is the same as a whole one is written as that is. -/
theorem text_of_same {x : Number} {n : Nat} (hn : n < 2 ^ 32) (hsame : x.same (ofNat n) = true) : x.text = decimal n := by
  rcases same_cases hsame with heq | hdouble
  · rw [heq]
    exact text_of_toDouble hn (toDouble_ofNat n)
  simp only [toDouble_ofNat, Double.same, Bool.and_eq_true, Bool.or_eq_true, decide_eq_true_eq] at hdouble
  rcases hdouble.2 with hbits | ⟨hx, hzero⟩
  · have hext {y z : Double} (h : y.bits = z.bits) : y = z := congrArg Double.mk h
    exact text_of_toDouble hn (hext hbits)
  · obtain ⟨hnumber, hzero₀⟩ : (Double.ofNat 0).isNaN = false ∧ (Double.ofNat 0).isZero = true := by decide +kernel
    have hsame₀ : (Double.ofNat n).same (Double.ofNat 0) = true := by
      rw [Double.same, hzero, hnumber, hzero₀, hdouble.1.2]
      simp
    obtain rfl := Double.eq_of_same_ofNat (hn.trans (by decide)) (by decide) hsame₀
    cases x with
    | int m =>
      obtain rfl : m = 0 := of_decide_eq_true hsame
      rfl
    | float y => exact text_of_isZero hx

private theorem length?_int (n : Int32) :
    (int n).length? = if 0 ≤ n.toInt then some n.toInt.toNat else none := rfl

private theorem length?_float (x : Double) : (float x).length? =
    if x.same (Double.ofNat x.toNatural) && decide (x.toNatural < 2 ^ 32) then some x.toNatural else none := rfl

theorem length?_ofNat {n : Nat} (hn : n < 2 ^ 32) : (ofNat n).length? = some n := by
  rcases ofNat_cases n with ⟨hint, hval⟩ | hfloat
  · rw [hint, length?_int, hval, if_pos (Int.natCast_nonneg n), Int.toNat_natCast]
  · obtain ⟨hfin, hnum⟩ := Double.ofNat_exact (show n < 2 ^ 53 by omega)
    have hpos : 0 < (Double.ofNat n).denominator := Nat.two_pow_pos _
    have hnatural : (Double.ofNat n).toNatural = n := by
      rw [Double.toNatural, if_pos hfin, hnum, Nat.mul_div_cancel _ hpos]
    have hsame : (Double.ofNat n).same (Double.ofNat n) = true := by
      rw [Double.same, Double.ofNat, Double.isNaN_ofRatio, decide_eq_true rfl]
      rfl
    rw [hfloat, length?_float, hnatural, hsame, decide_eq_true hn, Bool.and_self, if_pos rfl]

end Number

/-! The keys that numbers name. -/

/-- The key that a number names. -/
def Number.key (x : Number) : Key := .ofChars x.text

theorem Run.key_of_number (invoke : Caller) (x : Number) : Run.key invoke (.number x) = pure x.key := by
  cases x with
  | int n =>
    unfold Run.key
    dsimp only
    split
    · rename_i hn
      rw [Number.key, Number.text, Text.decimalInt, if_neg (by omega), ← Key.ofChars_decimal,
        show n.toInt.natAbs = n.toInt.toNat by omega]
    · rfl
  | float y => simp [Run.key, Run.primitive, Run.primitiveText, Number.key, Content.ofChars, Key.ofContent, Key.ofText]

/-- A number names the index that it is. -/
theorem Run.key_number {invoke : Caller} {x : Number} {n : Nat} (hn : n < 2 ^ 32) (h : x.toDouble = Double.ofNat n) :
    Run.key invoke (.number x) = pure (Key.ofNat n) := by
  rw [Run.key_of_number, Number.key, Number.text_of_toDouble hn h, Key.ofChars_decimal]

/-- Whether a key is a word with a letter that numbers are not written with. -/
def Key.lettered : Key → Bool
  | .name (.text s) => s.toList.any fun c => !c.isDigit && !".eE+-NaInfity".toList.contains c
  | _ => false

namespace Number

theorem key_cases (x : Number) : (∃ n < Key.indexBound, x.key = .index n ∧ x.text = decimal n) ∨
    ∃ c, x.key = .name c := by
  unfold key Key.ofChars
  dsimp only
  split
  · rename_i hindex
    simp only [Bool.and_eq_true, beq_iff_eq, decide_eq_true_eq] at hindex
    exact .inl ⟨_, hindex.2, rfl, hindex.1.2.symm⟩
  · exact .inr ⟨_, rfl⟩

/-- The letters and signs that numbers are written with. -/
theorem of_mem_text {x : Number} {c : Char} (hc : c ∈ x.text) : c.isDigit = true ∨ c ∈ ".eE+-NaInfity".toList := by
  have hdecimal {n : Nat} (h : c ∈ decimal n) : c.isDigit = true := Text.isDigit_of_mem_decimal h
  have hsign {b : Bool} (h : c ∈ (if b then ['-'] else [])) : c ∈ ".eE+-NaInfity".toList := by
    cases b with
    | true => rw [List.mem_singleton.1 h]; decide
    | false => cases h
  have hword {word : List Char} (hword : word ⊆ ".eE+-NaInfity".toList) (h : c ∈ word) := hword h
  cases x with
  | int n =>
    rw [text, Text.decimalInt] at hc
    split at hc
    · rcases List.mem_cons.1 hc with rfl | hc
      · exact .inr (by decide)
      · exact .inl (hdecimal hc)
    · exact .inl (hdecimal hc)
  | float y =>
    rw [text] at hc
    unfold Double.text at hc
    dsimp only at hc
    split at hc
    · exact .inr (hword (by decide) hc)
    · split at hc
      · split at hc <;> exact .inr (hword (by decide) hc)
      · split at hc
        · rcases List.mem_append.1 hc with hc | hc
          · exact .inr (hsign hc)
          · rw [List.mem_singleton.1 hc]
            exact .inl rfl
        · rcases List.mem_append.1 hc with hc | hc
          · exact .inr (hsign hc)
          · rw [← Double.Layout.written_text] at hc
            refine (Double.Layout.written_wellFormed _ _ _).of_mem_text hc |>.imp_right fun h => ?_
            exact hword (by decide) h

/-- No number is written as a word with a letter that numbers are not written with. -/
theorem lettered_key (x : Number) : x.key.lettered = false := by
  cases hkey : x.key with
  | name y =>
    cases y with
    | text s =>
      unfold key Key.ofChars at hkey
      dsimp only at hkey
      split at hkey
      · cases hkey
      · obtain rfl := Content.text.inj (Key.name.inj hkey)
        rw [Key.lettered, String.toList_ofList, List.any_eq_false]
        intro c hc hother
        rw [Bool.and_eq_true, Bool.not_eq_true', Bool.not_eq_true'] at hother
        rcases of_mem_text hc with hdigit | hletter
        · exact Bool.false_ne_true (hother.1.symm.trans hdigit)
        · exact Bool.false_ne_true (hother.2.symm.trans (List.contains_iff_mem.2 hletter))
    | broken => rfl
  | index => rfl
  | symbol => rfl

theorem key_ne (x : Number) {k : Key} (hk : k.lettered = true) : x.key ≠ k := by
  rintro rfl
  rw [x.lettered_key] at hk
  cases hk

theorem key_ne_length (x : Number) : x.key ≠ .length := x.key_ne (by decide)

theorem key_ne_proto (x : Number) : x.key ≠ .proto := x.key_ne (by decide)

end Number

end ScriptBridge.Script
