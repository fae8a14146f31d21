import Mathlib.Data.Nat.Digits.Defs
import ScriptBridge.Proofs.RoundTrip

/-! The texts that are tokens. A token is the scheme and a numeral with a value of 32 bits. Zeros in front of the
numeral count nothing, and the token that is written for the handle is the same text without them. -/
namespace ScriptBridge

namespace Text

variable {ds : List Char}

/-- One or more of the ten digits of ASCII. -/
def IsNumeral (ds : List Char) : Prop := ds ≠ [] ∧ ∀ c ∈ ds, '0' ≤ c ∧ c ≤ '9'

instance : DecidablePred IsNumeral := fun _ => inferInstanceAs (Decidable (_ ∧ _))

/-- The number that digits stand for by their places, the last of which is that of the units. -/
def placeValue (ds : List Char) : ℕ := Nat.ofDigits 10 (ds.map fun c => c.toNat - '0'.toNat).reverse

/-- Digits without the zeros in front of them; the last digit stays. -/
def withoutLeadingZeros : List Char → List Char
  | '0' :: c :: rest => withoutLeadingZeros (c :: rest)
  | ds => ds

theorem isDigit_iff (c : Char) : c.isDigit = true ↔ '0' ≤ c ∧ c ≤ '9' := by
  simp [Char.isDigit, Char.le_def]

theorem IsNumeral.isDigit (h : IsNumeral ds) : ∀ c ∈ ds, c.isDigit = true :=
  fun c hc => (isDigit_iff c).2 (h.2 c hc)

theorem numeral_eq_placeValue (ds : List Char) : numeral ds = placeValue ds := by
  rw [placeValue, Nat.ofDigits_eq_foldr, List.foldr_reverse, List.foldl_map, numeral, numeralFrom]
  congr
  funext n c
  exact Nat.add_comm (10 * n) (digitValue c)

private theorem digitChar_digitValue {c : Char} (h : c.isDigit = true) :
    digitValue c < 10 ∧ Nat.digitChar (digitValue c) = c := by
  obtain ⟨hlow, hhigh⟩ : 48 ≤ c.toNat ∧ c.toNat ≤ 57 := Char.isDigit_iff_toNat.1 h
  have hvalue : 48 + digitValue c = c.toNat := Nat.add_sub_cancel' hlow
  have hlt : digitValue c < 10 := by omega
  exact ⟨hlt, Char.toNat_inj.1 ((Nat.toNat_digitChar_of_lt_ten hlt).trans hvalue)⟩

/-- A numeral that does not begin with a zero is the one that is written for its value. -/
private theorem decimal_numeral_of_head (hne : ds ≠ []) (hdigits : ∀ c ∈ ds, c.isDigit = true)
    (hhead : ds.head? ≠ some '0') : decimal (numeral ds) = ds := by
  induction ds using List.reverseRecOn with
  | nil => exact absurd rfl hne
  | append_singleton ds c ih =>
    obtain ⟨hlt, hchar⟩ := digitChar_digitValue (hdigits c (by simp))
    rw [numeral_append_digit]
    rcases eq_or_ne ds [] with rfl | hds
    · rw [show numeral [] * 10 + digitValue c = digitValue c from Nat.zero_add _, decimal, if_pos hlt, hchar,
        List.nil_append]
    · -- The digits before the last one begin with the same digit, so that they are no zero.
      rw [List.head?_append_of_ne_nil _ hds] at hhead
      have hfront := ih hds (fun d hd => hdigits d (by simp [hd])) hhead
      have hpos : numeral ds ≠ 0 := by
        intro h0
        rw [h0, decimal, if_pos (by decide)] at hfront
        exact hhead (by rw [← hfront]; rfl)
      rw [decimal_mul_ten_add hpos hlt, hfront, hchar]

/-- What is written for the value of a numeral is the numeral without its leading zeros. -/
theorem decimal_numeral (hne : ds ≠ []) (hdigits : ∀ c ∈ ds, c.isDigit = true) :
    decimal (numeral ds) = withoutLeadingZeros ds := by
  fun_induction withoutLeadingZeros ds with
  | case1 c rest ih => exact ih (by simp) fun d hd => hdigits d (by simp [hd])
  | case2 ds hzeros =>
    by_cases hhead : ds.head? = some '0'
    · obtain rfl : ds = ['0'] := by
        rcases ds with _ | ⟨c, _ | ⟨d, rest⟩⟩
        · exact absurd rfl hne
        · rw [Option.some.inj hhead]
        · obtain rfl := Option.some.inj hhead
          exact absurd rfl (hzeros d rest)
      rw [decimal]
      rfl
    · exact decimal_numeral_of_head hne hdigits hhead

end Text

namespace Handle

variable {t : String} {h : Handle} {ds : List Char} {n : Nat}

theorem ofIndex?_eq_some_iff : ofIndex? n = some h ↔ n = h.raw.toNat := by
  unfold ofIndex?
  constructor
  · intro hn
    split at hn
    · obtain rfl := Option.some.inj hn
      rw [UInt32.toNat_ofNat', Nat.mod_eq_of_lt ‹_›]
    · cases hn
  · rintro rfl
    rw [if_pos h.raw.toNat_lt, UInt32.ofNat_toNat]

theorem ofIndex?_eq_none_iff : ofIndex? n = none ↔ 2 ^ 32 ≤ n := by
  simp [ofIndex?]

theorem scheme_append (ds : List Char) : "nsiId=" ++ String.ofList ds = String.ofList (scheme ++ ds) := by
  rw [String.ofList_append]
  rfl

/-- Behind the scheme a numeral is read as its value, if that has 32 bits, and nothing else is read there. -/
theorem ofToken?_append (ds : List Char) :
    ofToken? ("nsiId=" ++ String.ofList ds) = if Text.IsNumeral ds then ofIndex? (Text.placeValue ds) else none := by
  have hscheme : scheme.isPrefixOf (scheme ++ ds) = true := List.isPrefixOf_iff_prefix.2 (List.prefix_append _ _)
  have hnumeral : (!ds.isEmpty && ds.all Char.isDigit) = true ↔ Text.IsNumeral ds := by
    simp [Text.IsNumeral, Text.isDigit_iff]
  rw [scheme_append, ofToken?, String.toList_ofList, hscheme, Bool.true_and, List.drop_left,
    Text.numeral_eq_placeValue]
  exact if_congr hnumeral rfl rfl

theorem exists_of_ofToken? (ht : ofToken? t = some h) : ∃ ds, t = "nsiId=" ++ String.ofList ds := by
  have hscheme : scheme <+: t.toList := by
    unfold ofToken? at ht
    dsimp only at ht
    split at ht
    · rename_i hread
      exact List.isPrefixOf_iff_prefix.1 (Bool.and_eq_true_iff.1 (Bool.and_eq_true_iff.1 hread).1).1
    · cases ht
  obtain ⟨ds, hds⟩ := hscheme
  exact ⟨ds, by rw [scheme_append, hds, String.ofList_toList]⟩

theorem ofToken?_eq_some_iff : ofToken? t = some h ↔
    ∃ ds, Text.IsNumeral ds ∧ Text.placeValue ds = h.raw.toNat ∧ t = "nsiId=" ++ String.ofList ds := by
  constructor
  · intro ht
    obtain ⟨ds, rfl⟩ := exists_of_ofToken? ht
    rw [ofToken?_append] at ht
    split at ht
    · exact ⟨ds, ‹_›, ofIndex?_eq_some_iff.1 ht, rfl⟩
    · cases ht
  · rintro ⟨ds, hds, hvalue, rfl⟩
    rw [ofToken?_append, if_pos hds, ofIndex?_eq_some_iff.2 hvalue]

theorem ofToken?_eq_none_iff : ofToken? t = none ↔
    ∀ ds, Text.IsNumeral ds → Text.placeValue ds < 2 ^ 32 → t ≠ "nsiId=" ++ String.ofList ds := by
  constructor
  · rintro ht ds hds hvalue rfl
    rw [ofToken?_append, if_pos hds, ofIndex?_eq_none_iff] at ht
    omega
  · intro hother
    cases ht : ofToken? t with
    | none => rfl
    | some h =>
      obtain ⟨ds, hds, hvalue, htext⟩ := ofToken?_eq_some_iff.1 ht
      exact absurd htext (hother ds hds (hvalue ▸ h.raw.toNat_lt))

/-- The token of the handle that a numeral names has the numeral without its leading zeros. -/
theorem token_of_placeValue (hds : Text.IsNumeral ds) (hvalue : Text.placeValue ds = h.raw.toNat) :
    h.token = "nsiId=" ++ String.ofList (Text.withoutLeadingZeros ds) := by
  have hindex : h.numeralText = Text.withoutLeadingZeros ds := by
    rw [numeralText, index, ← hvalue, ← Text.numeral_eq_placeValue, Text.decimal_numeral hds.1 hds.isDigit]
  rw [token, hindex, scheme_append]

theorem token_injective : Function.Injective token := by
  intro a b hab
  rw [← Option.some_inj, ← ofToken?_token a, hab, ofToken?_token]

/-- The texts that are read as a handle are the scheme and a numeral of ASCII digits with the handle for its value,
however many zeros it begins with, and no other text is read. Every handle is read from its own token and from no
other handle's, and that token is any text that is read as the handle less the zeros that count nothing. -/
theorem tokens_read_exactly :
    (∀ (t : String) (h : Handle), ofToken? t = some h ↔
      ∃ ds, Text.IsNumeral ds ∧ Text.placeValue ds = h.raw.toNat ∧ t = "nsiId=" ++ String.ofList ds) ∧
    (∀ t : String, ofToken? t = none ↔
      ∀ ds, Text.IsNumeral ds → Text.placeValue ds < 2 ^ 32 → t ≠ "nsiId=" ++ String.ofList ds) ∧
    (∀ h : Handle, ofToken? h.token = some h) ∧ Function.Injective token ∧
    ∀ (t : String) (h : Handle), ofToken? t = some h →
      ∃ ds, t = "nsiId=" ++ String.ofList ds ∧ h.token = "nsiId=" ++ String.ofList (Text.withoutLeadingZeros ds) := by
  refine ⟨fun _ _ => ofToken?_eq_some_iff, fun _ => ofToken?_eq_none_iff, ofToken?_token, token_injective, ?_⟩
  intro t h ht
  obtain ⟨ds, hds, hvalue, htext⟩ := ofToken?_eq_some_iff.1 ht
  exact ⟨ds, htext, token_of_placeValue hds hvalue⟩

theorem tokens_read_exactly_zeros : ofToken? "nsiId=000000000004294967295" = some ⟨4294967295⟩ ∧
    ∃ ds, "nsiId=000000000004294967295" = "nsiId=" ++ String.ofList ds ∧
      token ⟨4294967295⟩ = "nsiId=" ++ String.ofList (Text.withoutLeadingZeros ds) :=
  have hread : ofToken? "nsiId=000000000004294967295" = some ⟨4294967295⟩ := rfl
  ⟨hread, tokens_read_exactly.2.2.2.2 _ _ hread⟩

-- One more than the greatest handle, a sign, digits of another script and nothing at all are no numerals of a handle.
example : ofToken? "nsiId=4294967296" = none ∧ ofToken? "nsiId=+1" = none ∧ ofToken? "nsiId=١" = none ∧
    ofToken? "nsiId=" = none := by decide

end Handle
end ScriptBridge
