import ScriptBridge.Double.Layout
import ScriptBridge.Proofs.Rounding

/-! Decimals and the numbers nearest to them. The shortest decimal of a number is nearest to it and to no
other number, so that what is written of a number reads back. -/
namespace ScriptBridge.Double

open ScriptBridge.Text (decimal)

/-- The number, and one and the same value for all that is not a number. -/
def canonical (x : Double) : Double := if x.isNaN then nan else x

private theorem decimal_ratio (d : Nat) (e : Int) :
    ((d * 10 ^ e.toNat : Nat) : ℚ) / (10 ^ (-e).toNat : Nat) = d * 10 ^ e := by
  obtain ⟨k, rfl | rfl⟩ := e.eq_nat_or_neg <;> simp [div_eq_mul_inv]

/-- Decimals of one value round to one magnitude. -/
theorem decimalMagnitude_congr {d d' : Nat} {e e' : Int} (h : (d : ℚ) * 10 ^ e = d' * 10 ^ e') :
    decimalMagnitude d e = decimalMagnitude d' e' := by
  rw [← decimal_ratio, ← decimal_ratio, div_eq_div_iff (by positivity) (by positivity)] at h
  exact BinaryFormat.round_congr (by positivity) (by positivity) (by exact_mod_cast h)

/-- Beyond these powers of ten there are no numbers. -/
private theorem two_pow_le_ten_pow : (2 : ℚ) ^ (1079 : Int) ≤ 10 ^ (332 : Int) := by
  calc (2 : ℚ) ^ (1079 : Int) = (2 ^ (13 : Int)) ^ (83 : Int) := by rw [← zpow_mul]; norm_num only
    _ ≤ (10 ^ (4 : Int)) ^ (83 : Int) := zpow_le_zpow_left₀ (by norm_num) (by positivity) (by norm_num)
    _ = 10 ^ (332 : Int) := by rw [← zpow_mul]; norm_num only

private theorem decimalMagnitude_large {m : Nat} {e : Int} (hm : m ≠ 0) (he : 400 < e) :
    decimalMagnitude m e = infinite := by
  refine BinaryFormat.round_double_eq_infinite (by positivity) (by positivity) ?_
  rw [decimal_ratio]
  calc (2 : ℚ) ^ (1024 : Int) ≤ 2 ^ (1079 : Int) := zpow_le_zpow_right₀ one_le_two (by norm_num)
    _ ≤ 1 * 10 ^ (332 : Int) := by rw [one_mul]; exact two_pow_le_ten_pow
    _ ≤ m * 10 ^ e := by
      gcongr
      · exact_mod_cast Nat.one_le_iff_ne_zero.2 hm
      · norm_num
      · omega

private theorem decimalMagnitude_small {m : Nat} {e : Int} (he : e < -400 - (m.log2 : Int)) :
    decimalMagnitude m e = 0 := by
  refine BinaryFormat.round_double_eq_zero (by positivity) ?_
  rw [decimal_ratio]
  have hlog : (m : ℚ) < 2 ^ ((m.log2 : Int) + 1) := by exact_mod_cast Nat.lt_log2_self
  calc (m : ℚ) * 10 ^ e ≤ 2 ^ ((m.log2 : Int) + 1) * 10 ^ (-332 - (m.log2 : Int)) := by
        gcongr
        · norm_num
        · omega
    _ = 2 ^ ((m.log2 : Int) + 1) * (10 ^ (m.log2 : Int))⁻¹ * (10 ^ (332 : Int))⁻¹ := by
        rw [sub_eq_add_neg, zpow_add₀ (by norm_num : (10 : ℚ) ≠ 0), zpow_neg, zpow_neg]
        ring
    _ ≤ 2 ^ ((m.log2 : Int) + 1) * (2 ^ (m.log2 : Int))⁻¹ * (2 ^ (1079 : Int))⁻¹ := by
        gcongr
        · exact pow_le_pow_left₀ (by norm_num) (by norm_num) _
        · exact two_pow_le_ten_pow
    _ = 2 ^ (-1078 : Int) := by
        rw [← zpow_neg, ← zpow_neg, ← zpow_add₀ two_ne_zero, ← zpow_add₀ two_ne_zero]
        congr 1
        omega
    _ < 2 ^ (-1076 : Int) := zpow_lt_zpow_right₀ one_lt_two (by norm_num)

/-- Reading a decimal gives the number that the decimal is nearest to. -/
theorem ofDecimal_eq (negative : Bool) (m : Nat) (e : Int) :
    ofDecimal negative m e = ofParts negative (decimalMagnitude m e) := by
  unfold ofDecimal
  split_ifs with hm hlarge hsmall
  · simp [hm, decimalMagnitude, BinaryFormat.round]
  · rw [decimalMagnitude_large hm hlarge]
  · rw [decimalMagnitude_small hsmall]
  · rfl

theorem onGrid?_reads {c : Choice} {magnitude num den d : Nat} {e : Int}
    (h : onGrid? c magnitude num den e = some d) : decimalMagnitude d e = magnitude := by
  unfold onGrid? at h
  cases c <;> grind

theorem withoutTrailingZeros_value (d : Nat) (e : Int) :
    ((withoutTrailingZeros d e).1 : ℚ) * 10 ^ (withoutTrailingZeros d e).2 = d * 10 ^ e := by
  fun_induction withoutTrailingZeros d e with
  | case1 d e h ih =>
    rw [ih, zpow_add₀ (by norm_num), zpow_one]
    have : ((d / 10 : Nat) : ℚ) * 10 = d := by exact_mod_cast Nat.div_mul_cancel (Nat.dvd_of_mod_eq_zero h.1)
    rw [← this]
    ring
  | case2 => rfl

/-- The exact decimal of a finite number. -/
private theorem exact_reads {x : Double} (hx : x.isFinite = true) :
    decimalMagnitude (x.significand * 2 ^ x.scale.toNat * 5 ^ (-x.scale).toNat) (min x.scale 0) = x.magnitude := by
  rw [← round_self hx]
  refine BinaryFormat.round_congr (by positivity) (Nat.two_pow_pos _).ne' ?_
  have hnone : (min x.scale 0).toNat = 0 := by omega
  have hplaces : (-min x.scale 0).toNat = (-x.scale).toNat := by omega
  rw [hnone, hplaces, numerator, denominator, pow_zero, mul_one, mul_assoc, ← mul_pow]
  norm_num only

private theorem shortestFrom_reads {c : Choice} {x : Double} (hx : x.isFinite = true) (point : Int)
    (fuel count : Nat) :
    decimalMagnitude (shortestFrom c x point fuel count).1 (shortestFrom c x point fuel count).2 = x.magnitude := by
  fun_induction shortestFrom c x point fuel count with
  | case1 => exact exact_reads hx
  | case2 fuel count e d h => exact onGrid?_reads h
  | case3 fuel count e h ih => exact ih

/-- The shortest decimal of a finite number is nearest to that number. -/
theorem shortest_reads {x : Double} (hx : x.isFinite = true) (c : Choice) :
    decimalMagnitude (x.shortest c).1 (x.shortest c).2 = x.magnitude := by
  rw [shortest, decimalMagnitude_congr (withoutTrailingZeros_value _ _)]
  exact shortestFrom_reads hx _ _ _

/-- A written decimal: digits, digits behind a point, and an exponent with its letter, sign and digits. -/
structure Decimal where
  whole : List Char
  fraction : Option (List Char) := none
  exponent : Option (Char × Option Char × List Char) := none
  deriving DecidableEq

namespace Decimal

open ScriptBridge.Text (numeral)

def exponentText : Option (Char × Option Char × List Char) → List Char
  | none => []
  | some (letter, sign, digits) => letter :: sign.toList ++ digits

def fractionText : Option (List Char) → List Char
  | none => []
  | some digits => '.' :: digits

def text (n : Decimal) : List Char := n.whole ++ fractionText n.fraction ++ exponentText n.exponent

/-- The digits without the point. -/
def mantissa (n : Decimal) : Nat := numeral (n.whole ++ n.fraction.getD [])

def exponentValue : Option (Char × Option Char × List Char) → Int
  | none => 0
  | some (_, sign, digits) => if sign = some '-' then -(numeral digits : Int) else numeral digits

/-- The power of ten by which the digits are multiplied. -/
def power (n : Decimal) : Int := exponentValue n.exponent - (n.fraction.getD []).length

/-- The number that a signed decimal is nearest to. -/
def toDouble (negative : Bool) (n : Decimal) : Double := ofDecimal negative n.mantissa n.power

structure WellFormed (n : Decimal) : Prop where
  whole : ∀ c ∈ n.whole, c.isDigit = true
  fraction : ∀ ds ∈ n.fraction, ∀ c ∈ ds, c.isDigit = true
  digits : n.whole ++ n.fraction.getD [] ≠ []
  exponent : ∀ x ∈ n.exponent, (x.1 = 'e' ∨ x.1 = 'E') ∧ (∀ s ∈ x.2.1, s = '+' ∨ s = '-') ∧ x.2.2 ≠ [] ∧
    ∀ c ∈ x.2.2, c.isDigit = true

/-- What a decimal is written with. -/
theorem WellFormed.of_mem_text {n : Decimal} (hn : n.WellFormed) {c : Char} (hc : c ∈ n.text) :
    c.isDigit = true ∨ c ∈ ['.', 'e', 'E', '+', '-'] := by
  rcases List.mem_append.1 hc with hc | hc
  · rcases List.mem_append.1 hc with hc | hc
    · exact .inl (hn.whole c hc)
    · cases hfraction : n.fraction with
      | none =>
        rw [hfraction] at hc
        cases hc
      | some ds =>
        rw [hfraction] at hc
        rcases List.mem_cons.1 hc with rfl | hc
        · exact .inr (by decide)
        · exact .inl (hn.fraction ds hfraction c hc)
  · cases hexponent : n.exponent with
    | none =>
      rw [hexponent] at hc
      cases hc
    | some x =>
      obtain ⟨letter, sign, digits⟩ := x
      obtain ⟨hletter, hsign, -, hdigits⟩ := hn.exponent _ hexponent
      rw [hexponent] at hc
      rcases List.mem_cons.1 hc with rfl | hc
      · rcases hletter with rfl | rfl <;> exact .inr (by decide)
      · rcases List.mem_append.1 hc with hc | hc
        · rcases hsign c (Option.mem_toList.1 hc) with rfl | rfl <;> exact .inr (by decide)
        · exact .inl (hdigits c hc)

end Decimal

end ScriptBridge.Double

namespace ScriptBridge.Text

theorem numeralFrom_eq (acc : Nat) (ds : List Char) :
    numeralFrom acc ds = acc * 10 ^ ds.length + numeral ds := by
  induction ds generalizing acc with
  | nil => simp [numeralFrom, numeral]
  | cons c rest ih =>
    have hstep (n : Nat) : numeralFrom n (c :: rest) = numeralFrom (10 * n + digitValue c) rest := rfl
    rw [numeral, hstep, hstep, ih, ih (10 * 0 + _), List.length_cons, pow_succ]
    ring

theorem numeral_append (as bs : List Char) : numeral (as ++ bs) = numeral as * 10 ^ bs.length + numeral bs := by
  rw [← numeralFrom_eq, numeral, numeral, numeralFrom, numeralFrom, numeralFrom, List.foldl_append]

theorem numeral_append_digit (ds : List Char) (c : Char) : numeral (ds ++ [c]) = numeral ds * 10 + digitValue c := by
  rw [numeral_append]
  simp [numeral, numeralFrom]

theorem numeral_zeros (n : Nat) : numeral (List.replicate n '0') = 0 := by
  induction n with
  | zero => rfl
  | succ n ih => rw [List.replicate_succ', numeral_append, ih, Nat.zero_mul]; rfl

end ScriptBridge.Text

namespace ScriptBridge.Double
namespace Layout

open ScriptBridge.Text (decimal)

/-- The decimal that a layout writes. -/
def written (l : Layout) (d : Nat) (e : Int) : Decimal :=
  let ds := decimal d
  let point := ds.length + e
  if l.lowestPoint ≤ point ∧ point ≤ l.highestPoint then
    if point ≤ 0 then { whole := ['0'], fraction := some (List.replicate (-point).toNat '0' ++ ds) }
    else if ds.length ≤ point then
      { whole := ds ++ List.replicate (point - ds.length).toNat '0'
        fraction := if l.wholeMark then some ['0'] else none }
    else { whole := ds.take point.toNat, fraction := some (ds.drop point.toNat) }
  else
    { whole := ds.take 1
      fraction := if ds.length ≤ 1 then none else some (ds.drop 1)
      exponent := some ('e',
        if point - 1 < 0 then some '-' else if l.plusMark && decide (0 < point - 1) then some '+' else none,
        decimal (point - 1).natAbs) }

theorem written_text (l : Layout) (d : Nat) (e : Int) : (l.written d e).text = l.placed d e := by
  unfold written placed
  dsimp only
  split_ifs <;> simp_all [Decimal.text, Decimal.fractionText, Decimal.exponentText, Text.decimalInt] <;> omega

private theorem digit_of_mem_zeros {n : Nat} {c : Char} (h : c ∈ List.replicate n '0') : c.isDigit = true := by
  rw [List.eq_of_mem_replicate h]
  rfl

theorem written_wellFormed (l : Layout) (d : Nat) (e : Int) : (l.written d e).WellFormed := by
  have hds {c : Char} (h : c ∈ decimal d) : c.isDigit = true := Text.isDigit_of_mem_decimal h
  have hne := Text.decimal_ne_nil d
  unfold written
  dsimp only
  split
  · split
    · refine ⟨by simp, fun ds h c hc => ?_, by simp, by simp⟩
      obtain rfl := Option.some.inj h
      rcases List.mem_append.1 hc with hc | hc
      · exact digit_of_mem_zeros hc
      · exact hds hc
    · split
      · refine ⟨fun c hc => ?_, fun ds h c hc => ?_, by simp [hne], by simp⟩
        · rcases List.mem_append.1 hc with hc | hc
          · exact hds hc
          · exact digit_of_mem_zeros hc
        · dsimp only at h
          split at h
          · obtain rfl := Option.some.inj h
            obtain rfl := List.mem_singleton.1 hc
            rfl
          · cases h
      · refine ⟨fun c hc => hds (List.mem_of_mem_take hc), fun ds h c hc => ?_, by simp [hne], by simp⟩
        obtain rfl := Option.some.inj h
        exact hds (List.mem_of_mem_drop hc)
  · refine ⟨fun c hc => hds (List.mem_of_mem_take hc), fun ds h c hc => ?_, by simp [hne], fun x h => ?_⟩
    · dsimp only at h
      split at h
      · cases h
      · obtain rfl := Option.some.inj h
        exact hds (List.mem_of_mem_drop hc)
    · obtain rfl := Option.some.inj h
      refine ⟨.inl rfl, fun s hs => ?_, Text.decimal_ne_nil _, fun c hc => Text.isDigit_of_mem_decimal hc⟩
      dsimp only at hs
      split at hs
      · exact .inr (Option.some.inj hs).symm
      · split at hs
        · exact .inl (Option.some.inj hs).symm
        · cases hs

private theorem value_of_places {n : Decimal} {d k : Nat} {e : Int} (hm : n.mantissa = d * 10 ^ k)
    (hp : n.power + k = e) : (n.mantissa : ℚ) * 10 ^ n.power = d * 10 ^ e := by
  rw [hm, ← hp, zpow_add₀ (by norm_num), zpow_natCast]
  push_cast
  ring

private theorem written_value_small (d k : Nat) :
    (⟨['0'], some (List.replicate k '0' ++ decimal d), none⟩ : Decimal).mantissa = d := by
  have hzeros : '0' :: (List.replicate k '0' ++ decimal d) = List.replicate (k + 1) '0' ++ decimal d := rfl
  simp only [Decimal.mantissa, Option.getD_some, List.singleton_append]
  rw [hzeros, Text.numeral_append, Text.numeral_zeros, Text.numeral_decimal, Nat.zero_mul, Nat.zero_add]

private theorem written_value_long (d k : Nat) (fraction : Option (List Char)) (hf : fraction.getD [] = [] ∨
    fraction.getD [] = ['0']) : (⟨decimal d ++ List.replicate k '0', fraction, none⟩ : Decimal).mantissa =
      d * 10 ^ (k + (fraction.getD []).length) := by
  have hwhole : Text.numeral (decimal d ++ List.replicate k '0') = d * 10 ^ k := by
    rw [Text.numeral_append, Text.numeral_zeros, Text.numeral_decimal, List.length_replicate, Nat.add_zero]
  rcases hf with hf | hf
  · simp only [Decimal.mantissa, hf, List.append_nil, hwhole, List.length_nil, Nat.add_zero]
  · simp only [Decimal.mantissa, hf, List.length_singleton]
    rw [Text.numeral_append, hwhole, pow_add, ← mul_assoc]
    rfl

/-- What a layout writes has the value of the decimal. -/
theorem written_value (l : Layout) (d : Nat) (e : Int) :
    ((l.written d e).mantissa : ℚ) * 10 ^ (l.written d e).power = d * 10 ^ e := by
  have hdigits := Text.numeral_decimal d
  have hlen : 0 < (decimal d).length := List.length_pos_iff.2 (Text.decimal_ne_nil d)
  unfold written
  dsimp only
  split
  · split
    · refine value_of_places (k := 0) ((written_value_small d _).trans (Nat.mul_one d).symm) ?_
      simp only [Decimal.power, Decimal.exponentValue, Option.getD_some, List.length_append, List.length_replicate]
      omega
    · split
      · refine value_of_places (written_value_long d _ _ (by split <;> simp)) ?_
        simp only [Decimal.power, Decimal.exponentValue]
        omega
      · refine value_of_places (k := 0) ?_ ?_
        · simp only [Decimal.mantissa, Option.getD_some, List.take_append_drop, hdigits, pow_zero, mul_one]
        · simp only [Decimal.power, Decimal.exponentValue, Option.getD_some, List.length_drop]
          omega
  · have hfraction : (decimal d).take 1 ++
        (if (decimal d).length ≤ 1 then none else some ((decimal d).drop 1) : Option (List Char)).getD [] =
          decimal d := by
      split
      · rename_i h
        rw [Option.getD_none, List.append_nil, List.take_of_length_le h]
      · rw [Option.getD_some, List.take_append_drop]
    refine value_of_places (k := 0) ?_ ?_
    · simp only [Decimal.mantissa, hfraction, hdigits, pow_zero, mul_one]
    · have hplaces := congrArg List.length hfraction
      rw [List.length_append, List.length_take] at hplaces
      have hexponent : Decimal.exponentValue (some ('e',
          if ((decimal d).length : Int) + e - 1 < 0 then some '-'
            else if l.plusMark && decide (0 < ((decimal d).length : Int) + e - 1) then some '+' else none,
          decimal (((decimal d).length : Int) + e - 1).natAbs)) = (decimal d).length + e - 1 := by
        simp only [Decimal.exponentValue, Text.numeral_decimal]
        by_cases hneg : ((decimal d).length : Int) + e - 1 < 0
        · simp only [hneg, if_true]
          omega
        · rw [if_neg hneg, if_neg (by split <;> simp)]
          omega
      simp only [Decimal.power, hexponent]
      omega

end Layout

theorem ofParts_self (x : Double) : ofParts x.negative x.magnitude = x := by
  obtain ⟨bits⟩ := x
  have := bits.toNat_lt
  refine congrArg Double.mk (UInt64.toNat_inj.1 ?_)
  rw [UInt64.toNat_ofNat']
  by_cases h : 2 ^ 63 ≤ bits.toNat <;> simp only [negative, magnitude, h, decide_true, decide_false, if_true,
    Bool.false_eq_true, if_false] <;> omega

/-- The decimal that is written of a finite number. -/
def written (l : Layout) (x : Double) : Decimal :=
  if x.isZero then { whole := ['0'], fraction := if l.wholeMark then some ['0'] else none }
  else l.written (x.shortest l.choice).1 (x.shortest l.choice).2

theorem written_wellFormed (l : Layout) (x : Double) : (x.written l).WellFormed := by
  unfold written
  split
  · refine ⟨by simp, fun ds h c hc => ?_, by simp, by simp⟩
    dsimp only at h
    split at h
    · obtain rfl := Option.some.inj h
      obtain rfl := List.mem_singleton.1 hc
      rfl
    · cases h
  · exact l.written_wellFormed _ _

theorem text_eq_written {l : Layout} (hl : l.signedZero = true) {x : Double} (hx : x.isFinite = true) :
    x.text l = (if x.negative then ['-'] else []) ++ (x.written l).text := by
  have hlt : x.magnitude < infinite := of_decide_eq_true hx
  have hnan : x.isNaN = false := decide_eq_false (by omega)
  have hinf : x.isInfinite = false := decide_eq_false (by omega)
  unfold text written
  simp only [hnan, hinf, hl, Bool.and_true, Bool.false_eq_true, if_false]
  split
  · split <;> split <;> rfl
  · rw [l.written_text]

/-- What is written of a finite number is read as its magnitude, with whatever sign stands before it. -/
theorem written_magnitude (l : Layout) {x : Double} (hx : x.isFinite = true) (negative : Bool) :
    (x.written l).toDouble negative = ofParts negative x.magnitude := by
  unfold written
  split
  · rename_i h0
    have hmag : x.magnitude = 0 := of_decide_eq_true h0
    have hzero : (⟨['0'], if l.wholeMark then some ['0'] else none, none⟩ : Decimal).mantissa = 0 := by
      cases l.wholeMark <;> rfl
    rw [Decimal.toDouble, hzero, hmag]
    rfl
  · rw [Decimal.toDouble, ofDecimal_eq, decimalMagnitude_congr (l.written_value _ _), shortest_reads hx]

/-- What is written of a finite number reads back. -/
theorem written_toDouble (l : Layout) {x : Double} (hx : x.isFinite = true) :
    (x.written l).toDouble x.negative = x := by
  rw [written_magnitude l hx, ofParts_self]

end ScriptBridge.Double
