import ScriptBridge.Json.Reader
import ScriptBridge.Json.Writer
import ScriptBridge.Proofs.Numerals

/-! The texts of JSON documents. A document may be laid out with blanks between its parts, and has the same value
wherever they stand. -/
namespace ScriptBridge.Json

open Double (Decimal)
open Grammar (span_append span_append_cons)
open Script.Numeral (Leading)

def Blank (text : List Char) : Prop := ∀ c ∈ text, isBlank c = true

namespace Number

/-- A signed decimal, digit by digit. -/
def ofDecimal (negative : Bool) (n : Decimal) : Number where
  negative := negative
  whole := n.whole
  fraction := n.fraction.getD []
  exponent := n.exponent.map fun x => (x.2.1 == some '-', x.2.2)
  integral := n.fraction.isNone && n.exponent.isNone

end Number

/-- A decimal that JSON has as a number: no zero in front of other digits, and no point without digits behind it. -/
structure IsLiteral (n : Decimal) : Prop where
  wellFormed : n.WellFormed
  leading : Leading n
  fraction : n.fraction ≠ some []

mutual
/-- A value and a text of it. -/
inductive Written : Json → List Char → Prop
  | null : Written .null ['n', 'u', 'l', 'l']
  | truth : Written (.bool true) ['t', 'r', 'u', 'e']
  | falsehood : Written (.bool false) ['f', 'a', 'l', 's', 'e']
  | number {n : Decimal} (hn : IsLiteral n) (negative : Bool) :
    Written (.number (.ofDecimal negative n)) ((if negative then ['-'] else []) ++ n.text)
  | text (s : String) : Written (.text (some s)) (literal s.toList)
  | emptyArray : Written (.array []) ['[', ']']
  | array {items : List Json} {inner : List Char} (h : WrittenItems items inner) :
    Written (.array items) ('[' :: inner ++ [']'])
  | emptyObject : Written (.object []) ['\x7b', '\x7d']
  | object {fields : List (Option String × Json)} {inner : List Char} (h : WrittenFields fields inner) :
    Written (.object fields) ('\x7b' :: inner ++ ['\x7d'])

inductive WrittenItems : List Json → List Char → Prop
  | last {v : Json} {before text after : List Char} (hb : Blank before) (h : Written v text) (ha : Blank after) :
    WrittenItems [v] (before ++ text ++ after)
  | next {v : Json} {vs : List Json} {before text after inner : List Char} (hb : Blank before) (h : Written v text)
      (ha : Blank after) (hs : WrittenItems vs inner) :
    WrittenItems (v :: vs) (before ++ text ++ after ++ ',' :: inner)

inductive WrittenFields : List (Option String × Json) → List Char → Prop
  | last {k : String} {v : Json} {before gap text after : List Char} (hb : Blank before) (hg : Blank gap)
      (h : Written v text) (ha : Blank after) :
    WrittenFields [(some k, v)] (before ++ literal k.toList ++ ':' :: gap ++ text ++ after)
  | next {k : String} {v : Json} {fs : List (Option String × Json)} {before gap text after inner : List Char}
      (hb : Blank before) (hg : Blank gap) (h : Written v text) (ha : Blank after) (hs : WrittenFields fs inner) :
    WrittenFields ((some k, v) :: fs) (before ++ literal k.toList ++ ':' :: gap ++ text ++ after ++ ',' :: inner)
end

theorem skipBlank_append {before : List Char} (h : Blank before) (text : List Char) :
    skipBlank (before ++ text) = skipBlank text := List.dropWhile_append_of_pos h

theorem skipBlank_cons {c : Char} (hc : isBlank c = false) (rest : List Char) : skipBlank (c :: rest) = c :: rest := by
  rw [skipBlank, List.dropWhile_cons, hc, if_neg Bool.false_ne_true]

/-! Strings. -/

private theorem hexPair_units : ∀ n : Fin 0x20,
    (hexPair n).length = 2 ∧ hexUnit? '0' '0' ((hexPair n).getD 0 ' ') ((hexPair n).getD 1 ' ') = some n.val := by
  decide

/-- A character comes back from the way it is written. -/
private theorem stringUnits_escapedChar (c : Char) (rest : List Char) :
    stringUnits (escapedChar c ++ rest) = (stringUnits rest).map fun r => (Text.unitsOf c ++ r.1, r.2) := by
  unfold escapedChar
  split_ifs with hquote hslash hline hreturn htab hback hfeed hcontrol
  · subst hquote; rfl
  · subst hslash; rfl
  · subst hline; rfl
  · subst hreturn; rfl
  · subst htab; rfl
  · subst hback; rfl
  · subst hfeed; rfl
  · have hunits := (hexPair_units ⟨c.toNat, hcontrol⟩).2
    have hsmall : Text.unitsOf c = [c.toNat] := by rw [Text.unitsOf, if_pos (by omega)]
    simp only [hexPair, List.getD_cons_zero, List.getD_cons_succ] at hunits
    simp only [hexPair, List.cons_append, List.nil_append, stringUnits, hunits, hsmall]
  · have hplain : ¬(c == '\\' || decide (c.toNat < 0x20)) = true := by simpa [hslash] using hcontrol
    rw [List.singleton_append, stringUnits, if_neg hplain]
    · exact hquote
    · rintro _ _ _ _ _ rfl
      contradiction
    · rintro _ _ rfl
      contradiction

/-- A string is read up to its closing quote. -/
theorem stringRest_literal (s : List Char) (rest : List Char) :
    stringRest (s.flatMap escapedChar ++ '"' :: rest) = some (some (String.ofList s), rest) := by
  have hunits : stringUnits (s.flatMap escapedChar ++ '"' :: rest) = some (Text.units s, rest) := by
    induction s with
    | nil => rfl
    | cons c s ih =>
      rw [List.flatMap_cons, List.append_assoc, stringUnits_escapedChar, ih]
      rfl
  rw [stringRest, hunits, Option.map_some, Text.ofUnits?_units]
  rfl

/-! Numbers. -/

/-- What may stand behind a value: the end of the text, a blank or a closing mark. -/
def Closed (rest : List Char) : Prop := ∀ c ∈ rest.head?, isBlank c = true ∨ c = ',' ∨ c = ']' ∨ c = '\x7d'

theorem Closed.not {rest : List Char} (h : Closed rest) : ∀ c ∈ rest.head?, c.isDigit = false ∧ c ≠ '.' ∧ c ≠ 'e' ∧
    c ≠ 'E' := by
  intro c hc
  rcases h c hc with hblank | rfl | rfl | rfl
  · have hcases : ((c = ' ' ∨ c = '\n') ∨ c = '\t') ∨ c = '\r' := by simpa [isBlank] using hblank
    rcases hcases with ((rfl | rfl) | rfl) | rfl <;> decide
  all_goals decide

variable {n : Decimal} {rest : List Char}

private def exponentSign (cs : List Char) : Bool × List Char :=
  match cs with
  | '-' :: rest => (true, rest)
  | '+' :: rest => (false, rest)
  | _ => (false, cs)

private theorem exponentOf_cons (c : Char) (cs : List Char) : exponentOf (c :: cs) =
    if c == 'e' || c == 'E' then
      let digits := digitsOf (exponentSign cs).2
      if digits.1.isEmpty then none else some (some ((exponentSign cs).1, digits.1), digits.2)
    else some (none, c :: cs) := rfl

private theorem exponentSign_digits {sign : Option Char} (hsign : ∀ s ∈ sign, s = '+' ∨ s = '-') {digits : List Char}
    (hne : digits ≠ []) (hdigits : ∀ c ∈ digits, c.isDigit = true) :
    exponentSign (sign.toList ++ (digits ++ rest)) = (sign == some '-', digits ++ rest) := by
  rcases sign with _ | s
  · obtain ⟨d, ds, rfl⟩ := List.exists_cons_of_ne_nil hne
    have hd := hdigits d List.mem_cons_self
    rw [Option.toList_none, List.nil_append, List.cons_append, exponentSign]
    · rfl
    all_goals
      rintro _ ⟨⟩
      cases hd
  · rcases hsign s rfl with rfl | rfl <;> rfl

private theorem exponentOf_text (hn : n.WellFormed) (hrest : Closed rest) :
    exponentOf (Decimal.exponentText n.exponent ++ rest) =
      some (n.exponent.map fun x => (x.2.1 == some '-', x.2.2), rest) := by
  rcases hexp : n.exponent with _ | ⟨letter, sign, digits⟩
  · cases rest with
    | nil => rfl
    | cons c rest =>
      obtain ⟨-, -, he, hE⟩ := hrest.not c rfl
      exact if_neg (by simp [he, hE])
  · obtain ⟨hletter, hsign, hne, hdigits⟩ := hn.exponent _ hexp
    obtain ⟨htake, hdrop⟩ := span_append hdigits fun c hc => (hrest.not c hc).1
    have hempty : digits.isEmpty = false := by simpa using hne
    rw [Decimal.exponentText, List.cons_append, List.cons_append, List.append_assoc, exponentOf_cons,
      if_pos (by simpa using hletter), exponentSign_digits hsign hne hdigits]
    simp only [digitsOf, htake, hdrop, hempty, Bool.false_eq_true, if_false, Option.map_some]

private theorem exponentText_head (hn : n.WellFormed) (hrest : Closed rest) :
    ∀ c ∈ (Decimal.exponentText n.exponent ++ rest).head?, c.isDigit = false ∧ c ≠ '.' := by
  rcases hexp : n.exponent with _ | ⟨letter, sign, digits⟩
  · exact fun c hc => ⟨(hrest.not c hc).1, (hrest.not c hc).2.1⟩
  · intro c hc
    obtain rfl := Option.some.inj hc
    rcases (hn.exponent _ hexp).1 with rfl | rfl <;> decide

private theorem fractionOf_text (hn : IsLiteral n) (hrest : Closed rest) :
    fractionOf (Decimal.fractionText n.fraction ++ (Decimal.exponentText n.exponent ++ rest)) =
      some (n.fraction.getD [], n.fraction.isSome, Decimal.exponentText n.exponent ++ rest) := by
  have hhead := exponentText_head hn.wellFormed hrest
  rcases hfraction : n.fraction with _ | digits
  · rw [Decimal.fractionText, List.nil_append]
    unfold fractionOf
    split
    · rename_i more heq
      exact absurd rfl (hhead '.' (by rw [heq]; rfl)).2
    · rfl
  · obtain ⟨htake, hdrop⟩ := span_append (hn.wellFormed.fraction _ hfraction) fun c hc => (hhead c hc).1
    have hempty : digits.isEmpty = false := by
      rw [List.isEmpty_eq_false_iff]
      rintro rfl
      exact hn.fraction hfraction
    simp only [Decimal.fractionText, List.cons_append, fractionOf, digitsOf, htake, hdrop, hempty, Bool.false_eq_true,
      if_false]
    rfl

private def numberSign (cs : List Char) : Bool × List Char :=
  match cs with
  | '-' :: rest => (true, rest)
  | _ => (false, cs)

private theorem number?_eq (cs : List Char) : number? cs =
    let whole := digitsOf (numberSign cs).2
    if whole.1.isEmpty || (decide (1 < whole.1.length) && whole.1.head? == some '0') then none
    else (fractionOf whole.2).bind fun f => (exponentOf f.2.2).bind fun e =>
      some (⟨(numberSign cs).1, whole.1, f.1, e.1, !f.2.1 && e.1.isNone⟩, e.2) := rfl

/-- A number is read up to the first character that cannot belong to it. -/
theorem number?_text (hn : IsLiteral n) (negative : Bool) (hrest : Closed rest) :
    number? ((if negative then ['-'] else []) ++ n.text ++ rest) = some (.ofDecimal negative n, rest) := by
  have hfraction_head : ∀ c ∈ (Decimal.fractionText n.fraction ++ (Decimal.exponentText n.exponent ++ rest)).head?,
      c.isDigit = false := by
    rcases n.fraction with _ | digits
    · exact fun c hc => (exponentText_head hn.wellFormed hrest c hc).1
    · intro c hc
      obtain rfl := Option.some.inj hc
      rfl
  obtain ⟨htake, hdrop⟩ := span_append hn.wellFormed.whole hfraction_head
  obtain ⟨c, t, hwhole, hzero⟩ := hn.leading
  have hsign : c ≠ '-' := by
    rintro rfl
    have hdigit := hn.wellFormed.whole '-' (by simp [hwhole])
    cases hdigit
  have hsplit : numberSign ((if negative then ['-'] else []) ++ n.text ++ rest) = (negative, n.text ++ rest) := by
    cases negative with
    | true => rfl
    | false =>
      simp only [Decimal.text, hwhole, Bool.false_eq_true, if_false, List.nil_append, List.cons_append, numberSign]
      split <;> simp_all
  have hcheck : (n.whole.isEmpty || (decide (1 < n.whole.length) && n.whole.head? == some '0')) = false := by
    rw [hwhole]
    by_cases hc : c = '0' 
    · simp [hzero hc]
    · simp [hc]
  rw [number?_eq, hsplit]
  simp only [Decimal.text, List.append_assoc, digitsOf, htake, hdrop, hcheck, Bool.false_eq_true, if_false,
    fractionOf_text hn hrest, Option.bind_some, exponentOf_text hn.wellFormed hrest]
  simp [Number.ofDecimal]

/-! Values. The fuel that they take is bounded by their texts. -/

private theorem value?_skip {before : List Char} (hb : Blank before) (fuel : Nat) (cs : List Char) :
    value? fuel (before ++ cs) = value? fuel cs := by
  cases fuel with
  | zero => rfl
  | succ fuel => rw [value?, value?, skipBlank_append hb]

private theorem closed_after {after rest : List Char} (ha : Blank after) (hrest : Closed rest) :
    Closed (after ++ rest) := by
  cases after with
  | nil => exact hrest
  | cons c after =>
    intro d hd
    obtain rfl := Option.some.inj hd
    exact .inl (ha c List.mem_cons_self)

private theorem IsLiteral.head {n : Decimal} (hn : IsLiteral n) (negative : Bool) :
    ∃ c cs, (if negative then ['-'] else []) ++ n.text = c :: cs ∧
      ∀ d, d ≠ '-' → d.isDigit = false → c ≠ d := by
  obtain ⟨c, t, hwhole, -⟩ := hn.leading
  cases negative with
  | true => exact ⟨'-', _, rfl, fun d hd _ => hd.symm⟩
  | false =>
    have hc := hn.wellFormed.whole c (by simp [hwhole])
    refine ⟨c, t ++ (Decimal.fractionText n.fraction ++ Decimal.exponentText n.exponent), ?_, ?_⟩
    · simp [Decimal.text, hwhole]
    · rintro d - hd rfl
      simp [hd] at hc

private theorem isBlank_of_ne {c : Char} (hspace : c ≠ ' ') (hline : c ≠ '\n') (htab : c ≠ '\t') (hreturn : c ≠ '\r') :
    isBlank c = false := by
  simp [isBlank, hspace, hline, htab, hreturn]

/-- A value begins with a character that is no blank and closes nothing. -/
private theorem Written.head {v : Json} {t : List Char} (h : Written v t) :
    ∃ c cs, t = c :: cs ∧ isBlank c = false ∧ c ≠ ']' := by
  cases h with
  | number hn negative =>
    obtain ⟨c, cs, htext, hne⟩ := hn.head negative
    refine ⟨c, cs, htext, isBlank_of_ne ?_ ?_ ?_ ?_, ?_⟩ <;> exact hne _ (by decide) (by decide)
  | _ => exact ⟨_, _, rfl, by decide, by decide⟩

private theorem value?_number {n : Decimal} (hn : IsLiteral n) (negative : Bool) {rest : List Char} (hrest : Closed rest)
    (fuel : Nat) : value? (fuel + 1) ((if negative then ['-'] else []) ++ n.text ++ rest) =
      some (.number (.ofDecimal negative n), rest) := by
  have hread := number?_text hn negative hrest
  obtain ⟨c, cs, htext, hblank, -⟩ := (Written.number hn negative).head
  obtain ⟨c', cs', htext', hne⟩ := hn.head negative
  obtain ⟨rfl, rfl⟩ := List.cons.inj (htext.symm.trans htext')
  have hbracket := hne '[' (by decide) (by decide)
  have hbrace := hne '\x7b' (by decide) (by decide)
  have hquote := hne '"' (by decide) (by decide)
  have hletter (d : Char) (hd : d ∈ ['n', 't', 'f']) : c ≠ d := by
    simp only [List.mem_cons, List.not_mem_nil, or_false] at hd
    rcases hd with rfl | rfl | rfl <;> exact hne _ (by decide) (by decide)
  rw [htext] at hread ⊢
  rw [List.cons_append] at hread ⊢
  rw [value?, skipBlank_cons hblank]
  split <;> simp_all

private theorem value?_array {inner : List Char} {c : Char} {cs : List Char} (hhead : skipBlank inner = c :: cs)
    (hc : c ≠ ']') (fuel : Nat) :
    value? (fuel + 1) ('[' :: inner) = (items? fuel inner).map fun r => (.array r.1, r.2) := by
  rw [value?, skipBlank_cons (by decide)]
  simp only [hhead]
  split
  · simp_all
  · rfl

private theorem value?_object {inner : List Char} {c : Char} {cs : List Char} (hhead : skipBlank inner = c :: cs)
    (hc : c ≠ '\x7d') (fuel : Nat) :
    value? (fuel + 1) ('\x7b' :: inner) = (fields? fuel inner).map fun r => (.object r.1, r.2) := by
  rw [value?, skipBlank_cons (by decide)]
  simp only [hhead]
  split
  · simp_all
  · rfl

private theorem closed_comma (rest : List Char) : Closed (',' :: rest) := fun _ hc =>
  .inr (.inl (Option.some.inj hc).symm)

private theorem WrittenItems.head {vs : List Json} {inner : List Char} (h : WrittenItems vs inner) (rest : List Char) :
    ∃ c cs, skipBlank (inner ++ ']' :: rest) = c :: cs ∧ c ≠ ']' := by
  cases h with
  | last hb h ha | next hb h ha hs =>
    obtain ⟨c, cs, rfl, hblank, hc⟩ := h.head
    simp only [List.append_assoc, List.cons_append]
    rw [skipBlank_append hb, skipBlank_cons hblank]
    exact ⟨c, _, rfl, hc⟩

private theorem WrittenFields.head {fs : List (Option String × Json)} {inner : List Char} (h : WrittenFields fs inner)
    (rest : List Char) : ∃ c cs, skipBlank (inner ++ '\x7d' :: rest) = c :: cs ∧ c ≠ '\x7d' := by
  cases h with
  | last hb hg h ha | next hb hg h ha hs =>
    simp only [literal, List.append_assoc, List.cons_append]
    rw [skipBlank_append hb, skipBlank_cons (by decide)]
    exact ⟨'"', _, rfl, by decide⟩

mutual
/-- A text is read as its value, up to a character that closes it. -/
theorem Written.read {v : Json} {t : List Char} : Written v t → ∀ {rest : List Char}, Closed rest → ∀ (fuel : Nat),
    2 * t.length ≤ fuel → value? fuel (t ++ rest) = some (v, rest) := by
  intro h rest hrest fuel hfuel
  have hpos : 0 < t.length := by
    obtain ⟨c, cs, rfl, -⟩ := h.head
    simp
  -- A value takes one step and the list that it stands in another, so two for each character are enough.
  obtain ⟨fuel, rfl⟩ := Nat.exists_eq_add_one.2 (Nat.lt_of_lt_of_le (by omega : 0 < 2 * t.length) hfuel)
  cases h with
  | null => rfl
  | truth => rfl
  | falsehood => rfl
  | number hn negative => exact value?_number hn negative hrest fuel
  | text s =>
    have hread : value? (fuel + 1) ('"' :: (s.toList.flatMap escapedChar ++ '"' :: rest)) =
        (stringRest (s.toList.flatMap escapedChar ++ '"' :: rest)).map fun r => (.text r.1, r.2) := rfl
    rw [literal, List.cons_append, List.cons_append, List.append_assoc, List.singleton_append, hread,
      stringRest_literal, String.ofList_toList]
    rfl
  | emptyArray => rfl
  | array hitems =>
    obtain ⟨c, cs, hhead, hc⟩ := hitems.head rest
    simp only [List.length_cons, List.length_append, List.length_nil] at hfuel
    rw [List.cons_append, List.cons_append, List.append_assoc, List.singleton_append, value?_array hhead hc,
      hitems.read rest _ (by omega)]
    rfl
  | emptyObject => rfl
  | object hfields =>
    obtain ⟨c, cs, hhead, hc⟩ := hfields.head rest
    simp only [List.length_cons, List.length_append, List.length_nil] at hfuel
    rw [List.cons_append, List.cons_append, List.append_assoc, List.singleton_append, value?_object hhead hc,
      hfields.read rest _ (by omega)]
    rfl

theorem WrittenItems.read {vs : List Json} {inner : List Char} :
    WrittenItems vs inner → ∀ (rest : List Char) (fuel : Nat), 2 * inner.length + 1 ≤ fuel →
      items? fuel (inner ++ ']' :: rest) = some (vs, rest) := by
  intro h rest fuel hfuel
  obtain ⟨fuel, rfl⟩ := Nat.exists_eq_add_one.2 (Nat.lt_of_lt_of_le (Nat.succ_pos _) hfuel)
  cases h with
  | last hb h ha =>
    simp only [List.length_append] at hfuel
    have hclose : Closed (']' :: rest) := fun c hc => .inr (.inr (.inl (Option.some.inj hc).symm))
    have hvalue := h.read (closed_after ha hclose) fuel (by omega)
    rw [items?, List.append_assoc, List.append_assoc, value?_skip hb, hvalue]
    simp only [skipBlank_append ha, skipBlank_cons (by decide : isBlank ']' = false)]
  | next hb h ha hs =>
    simp only [List.length_append, List.length_cons] at hfuel
    have hvalue (more : List Char) := h.read (closed_after ha (closed_comma more)) fuel (by omega)
    have hrest := hs.read rest fuel (by omega)
    rw [items?, List.append_assoc, List.append_assoc, List.append_assoc, value?_skip hb, List.cons_append, hvalue]
    simp only [skipBlank_append ha, skipBlank_cons (by decide : isBlank ',' = false), hrest]
    rfl

theorem WrittenFields.read {fs : List (Option String × Json)} {inner : List Char} : WrittenFields fs inner →
    ∀ (rest : List Char) (fuel : Nat), 2 * inner.length + 1 ≤ fuel →
      fields? fuel (inner ++ '\x7d' :: rest) = some (fs, rest) := by
  intro h rest fuel hfuel
  obtain ⟨fuel, rfl⟩ := Nat.exists_eq_add_one.2 (Nat.lt_of_lt_of_le (Nat.succ_pos _) hfuel)
  cases h with
  | last hb hg h ha =>
    simp only [literal, List.length_append, List.length_cons] at hfuel
    have hclose : Closed ('\x7d' :: rest) := fun c hc => .inr (.inr (.inr (Option.some.inj hc).symm))
    have hvalue := h.read (closed_after ha hclose) fuel (by omega)
    rw [fields?]
    simp only [literal, List.append_assoc, List.cons_append, List.nil_append, skipBlank_append hb,
      skipBlank_cons (by decide : isBlank '"' = false), stringRest_literal, String.ofList_toList,
      skipBlank_cons (by decide : isBlank ':' = false), value?_skip hg, hvalue, skipBlank_append ha,
      skipBlank_cons (by decide : isBlank '\x7d' = false)]
  | next hb hg h ha hs =>
    simp only [literal, List.length_append, List.length_cons] at hfuel
    have hvalue (more : List Char) := h.read (closed_after ha (closed_comma more)) fuel (by omega)
    have hrest := hs.read rest fuel (by omega)
    rw [fields?]
    simp only [literal, List.append_assoc, List.cons_append, List.nil_append, skipBlank_append hb,
      skipBlank_cons (by decide : isBlank '"' = false), stringRest_literal, String.ofList_toList,
      skipBlank_cons (by decide : isBlank ':' = false), value?_skip hg, hvalue, skipBlank_append ha,
      skipBlank_cons (by decide : isBlank ',' = false), hrest]
    rfl
end

/-- A text of a value is a document with this value. -/
theorem parse?_written {v : Json} {t : List Char} (h : Written v t) : parse? t = some v := by
  have hclosed : Closed [] := nofun
  have hread := h.read hclosed (2 * t.length + 2) (by omega)
  rw [List.append_nil] at hread
  rw [parse?, hread]
  rfl

/-! Documents as they are laid out in lines. -/

/-- A number that is written as one of the numbers that JSON has. -/
def Number.IsWritten (n : Number) : Prop :=
  ∃ (d : Decimal) (negative : Bool), IsLiteral d ∧ n = ofDecimal negative d ∧
    n.write = (if negative then ['-'] else []) ++ d.text

theorem Number.isWritten_ofNat (n : Nat) : (ofNat n).IsWritten := by
  refine ⟨⟨Text.decimal n, none, none⟩, false, ⟨⟨?_, nofun, ?_, nofun⟩, Script.Numeral.leading_decimal n, nofun⟩, rfl, ?_⟩
  · exact fun c hc => Text.isDigit_of_mem_decimal hc
  · simp [Text.decimal_ne_nil]
  · simp [write, ofNat, Decimal.text, Decimal.fractionText, Decimal.exponentText]

mutual
/-- All strings have values, and all numbers are written as numbers. -/
def Complete : Json → Prop
  | .number n => n.IsWritten
  | .text s => s.isSome = true
  | .array items => AllComplete items
  | .object fields => FieldsComplete fields
  | _ => True

def AllComplete : List Json → Prop
  | [] => True
  | v :: rest => v.Complete ∧ AllComplete rest

def FieldsComplete : List (Option String × Json) → Prop
  | [] => True
  | (k, v) :: rest => k.isSome = true ∧ v.Complete ∧ FieldsComplete rest
end

private theorem blank_newLine (depth : Nat) : Blank (newLine depth) := by
  intro c hc
  rcases List.mem_cons.1 hc with rfl | hc
  · rfl
  · rw [List.eq_of_mem_replicate hc]
    rfl

theorem blank_nil : Blank [] := nofun

private theorem blank_space : Blank [' '] := by
  intro c hc
  obtain rfl := List.mem_singleton.1 hc
  rfl

mutual
/-- A document is a text of its value, at any depth. -/
theorem written_pretty (depth : Nat) : (v : Json) → v.Complete → Written v (v.pretty depth)
  | .null, _ => .null
  | .bool true, _ => .truth
  | .bool false, _ => .falsehood
  | .number n, h => by
    obtain ⟨d, negative, hd, hn, hwrite⟩ := h
    rw [pretty, hwrite, hn]
    exact .number hd negative
  | .text s, h => by
    obtain ⟨t, rfl⟩ := Option.isSome_iff_exists.1 h
    exact .text t
  | .array [], _ => .emptyArray
  | .array (v :: vs), h => by
    have hitems := writtenItems_pretty (depth + 1) (blank_newLine depth) (v :: vs) nofun h
    rw [pretty, List.cons_append]
    exact .array hitems
  | .object [], _ => .emptyObject
  | .object (f :: fs), h => by
    have hfields := writtenFields_pretty (depth + 1) (blank_newLine depth) (f :: fs) nofun h
    rw [pretty, List.cons_append]
    exact .object hfields

theorem writtenItems_pretty (depth : Nat) {after : List Char} (ha : Blank after) : (vs : List Json) → vs ≠ [] →
    AllComplete vs → WrittenItems vs (separated [','] (prettyItems depth vs) ++ after)
  | [v], _, h => .last (blank_newLine depth) (written_pretty depth v h.1) ha
  | v :: w :: more, _, h => by
    have hmore := writtenItems_pretty depth ha (w :: more) nofun h.2
    have hnext := WrittenItems.next (blank_newLine depth) (written_pretty depth v h.1) blank_nil hmore
    simpa [prettyItems, separated] using hnext

theorem writtenFields_pretty (depth : Nat) {after : List Char} (ha : Blank after) :
    (fs : List (Option String × Json)) → fs ≠ [] → FieldsComplete fs →
    WrittenFields fs (separated [','] (prettyFields depth fs) ++ after)
  | [(some k, v)], _, h => by
    have hlast := WrittenFields.last (k := k) (blank_newLine depth) blank_space (written_pretty depth v h.2.1) ha
    simpa [prettyFields, separated] using hlast
  | (some k, v) :: g :: more, _, h => by
    have hmore := writtenFields_pretty depth ha (g :: more) nofun h.2.2
    have hnext := WrittenFields.next (k := k) (blank_newLine depth) blank_space (written_pretty depth v h.2.1) blank_nil
      hmore
    simpa [prettyFields, separated] using hnext
  | (none, _) :: _, _, h => by
    cases h.1
end

end ScriptBridge.Json
