import ScriptBridge.Expression
import ScriptBridge.Script.Letter

/-! Words of the script language. Among ASCII characters only those of identifiers stand in a word, and the
property behind a getter is a word when the getter is. -/
namespace ScriptBridge

namespace Text

/-- All points of a closed range lie within one stretch of a set. -/
def spans (lo hi : Nat) : List Nat → Bool
  | first :: last :: rest => (first.ble lo && hi.blt last) || spans lo hi rest
  | _ => false

/-- No point of a closed range lies within a set. -/
def avoids (lo hi : Nat) : List Nat → Bool
  | [] => true
  | [first] => hi.blt first
  | first :: last :: rest => (hi.blt first || last.ble lo) && avoids lo hi rest

theorem within_of_spans {lo hi n : Nat} {bounds : List Nat} (h : spans lo hi bounds = true) (hlo : lo ≤ n)
    (hhi : n ≤ hi) : within bounds n = true := by
  fun_induction spans lo hi bounds with
  | case1 first last rest ih =>
    simp only [Bool.or_eq_true, Bool.and_eq_true, Nat.ble_eq, Nat.blt_eq] at h
    simp only [within, Bool.or_eq_true, Bool.and_eq_true, decide_eq_true_eq]
    exact h.imp (fun ⟨h₁, h₂⟩ => ⟨by omega, by omega⟩) ih
  | case2 => cases h

theorem not_within_of_avoids {lo hi n : Nat} {bounds : List Nat} (h : avoids lo hi bounds = true) (hlo : lo ≤ n)
    (hhi : n ≤ hi) : within bounds n = false := by
  fun_induction avoids lo hi bounds with
  | case1 => rfl
  | case2 first =>
    simp only [Nat.blt_eq] at h
    exact decide_eq_false (by omega)
  | case3 first last rest ih =>
    simp only [Bool.and_eq_true, Bool.or_eq_true, Nat.ble_eq, Nat.blt_eq] at h
    simp only [within, ih h.2, Bool.or_false, Bool.and_eq_false_iff, decide_eq_false_iff_not]
    omega

end Text

namespace Script

theorem beginsWord_ascii {c : Char} (h : c.toNat < 0x80) : Text.beginsWord c = false :=
  Text.not_within_of_avoids (show Text.avoids 0 0x7F _ = true by decide +kernel) (Nat.zero_le _) (by omega)

theorem standsInWord_ascii {c : Char} (h : c.toNat < 0x80) : Text.standsInWord c = false := by
  have hmark : Text.within Text.markBoundaries c.toNat = false :=
    Text.not_within_of_avoids (show Text.avoids 0 0x7F _ = true by decide +kernel) (Nat.zero_le _) (by omega)
  have hjoin : Text.isJoiner c = false := by
    simp only [Text.isJoiner, Bool.or_eq_false_iff, beq_eq_false_iff_ne]
    omega
  rw [Text.standsInWord, beginsWord_ascii h, hmark, hjoin]
  rfl

theorem isWordStart_ascii {c : Char} (h : c.toNat < 0x80) : isWordStart c = isIdentifierStart c := by
  rw [isWordStart, beginsWord_ascii h, Bool.or_false]

private theorem isAlpha_eq (c : Char) :
    c.isAlpha = (decide (65 ≤ c.val ∧ c.val ≤ 90) || decide (97 ≤ c.val) && decide (c.val ≤ 122)) := rfl

theorem isIdentifierPart_beyond {c : Char} (h : 0x7F < c.toNat) : isIdentifierPart c = false := by
  have hval : c.val.toNat = c.toNat := rfl
  have hne {d : Char} (hd : d.toNat ≤ 0x7F) : (c == d) = false :=
    beq_eq_false_iff_ne.2 fun hcd => by subst hcd; omega
  have hranges : c.isAlphanum = false := by
    simp [Char.isAlphanum, isAlpha_eq, Char.isDigit, UInt32.le_iff_toNat_le, hval]
    omega
  simp [isIdentifierPart, hranges, hne]

theorem isWordStart_digit {c : Char} (h : c.isDigit = true) : isWordStart c = false := by
  have hval : c.val.toNat = c.toNat := rfl
  simp only [Char.isDigit, Bool.and_eq_true, decide_eq_true_eq, ge_iff_le, UInt32.le_iff_toNat_le, hval] at h
  have h48 : (48 : UInt32).toNat ≤ c.toNat ∧ c.toNat ≤ (57 : UInt32).toNat := h
  have hbounds : 48 ≤ c.toNat ∧ c.toNat ≤ 57 := h48
  have hne {d : Char} (hd : 57 < d.toNat ∨ d.toNat < 48) : (c == d) = false :=
    beq_eq_false_iff_ne.2 fun hcd => by subst hcd; omega
  have halpha : c.isAlpha = false := by
    simp [isAlpha_eq, UInt32.le_iff_toNat_le, hval]
    omega
  rw [isWordStart_ascii (by omega)]
  simp [isIdentifierStart, halpha, hne]

theorem isWordPart_of_isWordStart {c : Char} (h : isWordStart c = true) : isWordPart c = true := by
  simp only [isWordStart, isIdentifierStart, Bool.or_eq_true] at h
  simp only [isWordPart, isIdentifierPart, Text.standsInWord, Char.isAlphanum, Bool.or_eq_true]
  rcases h with ((h | h) | h) | h <;> simp [h]

/-- A character that begins a word, and characters that stand in one. -/
def IsWord : List Char → Prop
  | [] => False
  | c :: rest => isWordStart c = true ∧ ∀ d ∈ rest, isWordPart d = true

theorem IsWord.part {s : List Char} (h : IsWord s) : ∀ c ∈ s, isWordPart c = true := by
  cases s with
  | nil => exact h.elim
  | cons c rest =>
    intro d hd
    rcases List.mem_cons.1 hd with rfl | hd
    · exact isWordPart_of_isWordStart h.1
    · exact h.2 d hd

theorem isWord_of_isIdentifier {s : List Char} (h : isIdentifier s = true) : IsWord s := by
  cases s with
  | nil => cases h
  | cons c rest =>
    simp only [isIdentifier, Bool.and_eq_true, List.all_eq_true] at h
    exact ⟨by simp [isWordStart, h.1], fun d hd => by simp [isWordPart, h.2 d hd]⟩

private def within16 (lo hi : Nat) : Bool := decide (hi < 0xD800) || (decide (0xDFFF < lo) && decide (hi < 0x110000))

/-- The lower-case letters of a run begin words, as far as the letters of the run stand in words. -/
private def lowersInWords (r : Text.CaseRun) : Bool :=
  let lo := (r.first + r.offset).toNat
  let hi := (r.last + r.offset).toNat
  (Text.spans lo hi Text.letterBoundaries && within16 lo hi)
    || (decide (0x200D < r.first) && Text.avoids r.first r.last Text.letterBoundaries
      && Text.avoids r.first r.last Text.markBoundaries)
    || (List.range ((r.last - r.first) / r.step + 1)).all fun k =>
      !isWordPart (Char.ofNat (r.first + r.step * k))
        || isWordStart (Char.ofNat ((r.first + r.step * k : Nat) + r.offset).toNat)

private theorem caseRuns_lowerInWords : ∀ r ∈ Text.caseRuns, lowersInWords r = true := by decide +kernel

private theorem toNat_ofNat_of_within16 {lo hi n : Nat} (h : within16 lo hi = true) (hlo : lo ≤ n) (hhi : n ≤ hi) :
    (Char.ofNat n).toNat = n := by
  simp only [within16, Bool.or_eq_true, Bool.and_eq_true, decide_eq_true_eq] at h
  have hvalid : n.isValidChar := by
    unfold Nat.isValidChar
    omega
  rw [Char.ofNat, dif_pos hvalid]
  rfl

private theorem caseRuns_step : ∀ r ∈ Text.caseRuns, r.step ≠ 0 := by decide +kernel

private theorem not_isWordPart_of_beyond {c : Char} (h : 0x200D < c.toNat) (hbegins : Text.beginsWord c = false)
    (hmark : Text.within Text.markBoundaries c.toNat = false) : ¬ isWordPart c = true := by
  have hjoin : Text.isJoiner c = false := by
    simp only [Text.isJoiner, Bool.or_eq_false_iff, beq_eq_false_iff_ne]
    omega
  have hident : isIdentifierPart c = false := isIdentifierPart_beyond (by omega)
  simp [isWordPart, Text.standsInWord, hbegins, hmark, hjoin, hident]

private theorem isWordStart_of_caseRun {c : Char} {r : Text.CaseRun} (hr : Text.caseRun? c = some r)
    (hc : isWordPart c = true) : isWordStart (Char.ofNat (c.toNat + r.offset).toNat) = true := by
  unfold Text.caseRun? at hr
  have hcovers := List.find?_some hr
  simp only [Text.CaseRun.covers, Bool.and_eq_true, decide_eq_true_eq, beq_iff_eq] at hcovers
  obtain ⟨⟨hfirst, hlast⟩, hstep⟩ := hcovers
  have hmem := List.mem_of_find?_eq_some hr
  have hlower := caseRuns_lowerInWords r hmem
  simp only [lowersInWords, Bool.or_eq_true, Bool.and_eq_true] at hlower
  rcases hlower with (⟨hspans, hchars⟩ | ⟨⟨hbeyond, hletters⟩, hmarks⟩) | hpoints
  · have hlo : ((r.first : Int) + r.offset).toNat ≤ ((c.toNat : Int) + r.offset).toNat := by omega
    have hhi : ((c.toNat : Int) + r.offset).toNat ≤ ((r.last : Int) + r.offset).toNat := by omega
    simp only [isWordStart, Text.beginsWord, toNat_ofNat_of_within16 hchars hlo hhi,
      Text.within_of_spans hspans hlo hhi, Bool.or_true]
  · have hbeyond : 0x200D < r.first := of_decide_eq_true hbeyond
    have hbegins : Text.beginsWord c = false := Text.not_within_of_avoids hletters hfirst hlast
    have hmark : Text.within Text.markBoundaries c.toNat = false := Text.not_within_of_avoids hmarks hfirst hlast
    exact absurd hc (not_isWordPart_of_beyond (by omega) hbegins hmark)
  · obtain ⟨k, hk⟩ := Nat.dvd_of_mod_eq_zero hstep
    have hn : c.toNat = r.first + r.step * k := by omega
    have hkle : k < (r.last - r.first) / r.step + 1 := by
      rcases Nat.eq_zero_or_pos r.step with h0 | h0
      · have hpos : r.step ≠ 0 := caseRuns_step r hmem
        exact absurd h0 hpos
      · exact Nat.lt_succ_of_le ((Nat.le_div_iff_mul_le h0).2 (by rw [Nat.mul_comm]; omega))
    have hpoint := List.all_eq_true.1 hpoints k (List.mem_range.2 hkle)
    rwa [← hn, Char.ofNat_toNat, hc, Bool.not_true, Bool.false_or] at hpoint

/-- The stretches of a set, each with its first point and the first point behind it. -/
private def stretches : List Nat → List (Nat × Nat)
  | first :: last :: rest => (first, last) :: stretches rest
  | _ => []

private theorem exists_stretch {n : Nat} {bounds : List Nat} (heven : bounds.length % 2 = 0)
    (h : Text.within bounds n = true) : ∃ p ∈ stretches bounds, p.1 ≤ n ∧ n < p.2 := by
  fun_induction stretches bounds with
  | case1 first last rest ih =>
    simp only [Text.within, Bool.or_eq_true, Bool.and_eq_true, decide_eq_true_eq] at h
    rcases h with h | h
    · exact ⟨(first, last), List.mem_cons_self, h⟩
    · obtain ⟨p, hp, hn⟩ := ih (by simp only [List.length_cons] at heven; omega) h
      exact ⟨p, List.mem_cons_of_mem _ hp, hn⟩
  | case2 bounds hshort =>
    match bounds, hshort with
    | [], _ => cases h
    | [_], _ => cases heven
    | first :: last :: rest, hshort => exact absurd rfl (hshort first last rest)

/-- An upper-case letter without a lower-case form begins a word, if it stands in words at all. -/
private theorem caseless_beginWords : ∀ p ∈ stretches Text.caselessUpperBoundaries,
    (Text.spans p.1 (p.2 - 1) Text.letterBoundaries || (decide (0x200D < p.1)
      && Text.avoids p.1 (p.2 - 1) Text.letterBoundaries
      && Text.avoids p.1 (p.2 - 1) Text.markBoundaries)) = true := by decide +kernel

private theorem isWordStart_of_caseless {c : Char}
    (hupper : Text.within Text.caselessUpperBoundaries c.toNat = true) (hc : isWordPart c = true) :
    isWordStart c = true := by
  obtain ⟨p, hp, hfirst, hlast⟩ := exists_stretch (by decide +kernel) hupper
  have hcase := caseless_beginWords p hp
  simp only [Bool.or_eq_true, Bool.and_eq_true] at hcase
  rcases hcase with hspans | ⟨⟨hbeyond, hletters⟩, hmarks⟩
  · simp only [isWordStart, Text.beginsWord, Text.within_of_spans hspans hfirst (by omega), Bool.or_true]
  · have hbeyond : 0x200D < p.1 := of_decide_eq_true hbeyond
    have hbegins : Text.beginsWord c = false := Text.not_within_of_avoids hletters hfirst (by omega)
    have hmark : Text.within Text.markBoundaries c.toNat = false :=
      Text.not_within_of_avoids hmarks hfirst (by omega)
    exact absurd hc (not_isWordPart_of_beyond (by omega) hbegins hmark)

/-- In lower case the first letter behind `get` begins a word. -/
theorem isWord_lower {c : Char} {rest : List Char} (hupper : Text.isUpper c = true) (hc : isWordPart c = true)
    (hrest : ∀ d ∈ rest, isWordPart d = true) : IsWord (Text.lower c ++ rest) := by
  unfold Text.lower
  split
  · refine ⟨by decide, fun d hd => ?_⟩
    rcases List.mem_cons.1 hd with rfl | hd
    · decide +kernel
    · exact hrest d hd
  · rename_i hdotted
    rcases hr : Text.caseRun? c with _ | r
    · simp only [Text.isUpper, hr, Option.isSome_none, Bool.false_or, hdotted] at hupper
      exact ⟨isWordStart_of_caseless hupper hc, hrest⟩
    · exact ⟨isWordStart_of_caseRun hr hc, hrest⟩

/-- The property that a getter reads is named by a word. -/
theorem isWord_propertyName? {member property : String} (hm : IsWord member.toList)
    (h : propertyName? member = some property) : IsWord property.toList := by
  unfold propertyName? at h
  split at h
  · rename_i first rest heq
    split at h
    · rename_i hupper
      cases h
      rw [heq] at hm
      rw [String.toList_ofList]
      exact isWord_lower hupper (hm.2 first (by simp)) fun d hd => hm.2 d (by simp [hd])
    · cases h
  · cases h

end Script
end ScriptBridge
