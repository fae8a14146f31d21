import ScriptBridge.Proofs.Grammar
import ScriptBridge.Proofs.WholeNumbers
import ScriptBridge.Script.Token

/-! Numerals as scripts read them. A decimal with a point or an exponent is read as the number that it is nearest
to, and the digits of a handle as that handle. -/
namespace ScriptBridge.Script.Numeral

open Double (Decimal)
open Grammar (Delimited span_append)

variable {n : Decimal} {rest : List Char}

private theorem exponent?_digits {digits : List Char} (hne : digits ≠ []) (hdigits : ∀ c ∈ digits, c.isDigit = true)
    (hrest : Delimited rest) : exponent? (digits ++ rest) = some ((Text.numeral digits : Int), rest) ∧
      exponent? ('+' :: (digits ++ rest)) = some ((Text.numeral digits : Int), rest) ∧
      exponent? ('-' :: (digits ++ rest)) = some (-(Text.numeral digits : Int), rest) := by
  obtain ⟨htake, hdrop⟩ := span_append hdigits (hrest.not (by decide) (by decide) (by decide))
  have hempty : digits.isEmpty = false := by simpa using hne
  refine ⟨?_, ?_, ?_⟩
  · unfold exponent?
    split
    rename_i below r heq
    obtain ⟨rfl, rfl⟩ : below = false ∧ r = digits ++ rest := by
      cases digits with
      | nil => exact absurd rfl hne
      | cons c ds =>
        have hc := hdigits c (by simp)
        rw [List.cons_append] at heq ⊢
        split at heq <;> simp_all
    simp only [htake, hdrop, hempty, Bool.false_eq_true, if_false]
  · simp only [exponent?, htake, hdrop, hempty, Bool.false_eq_true, if_false]
  · simp only [exponent?, htake, hdrop, hempty, Bool.false_eq_true, if_false, if_true]

private theorem exponent?_text {letter : Char} {sign : Option Char} {digits : List Char}
    (hsign : ∀ s ∈ sign, s = '+' ∨ s = '-') (hne : digits ≠ []) (hdigits : ∀ c ∈ digits, c.isDigit = true)
    (hrest : Delimited rest) :
    exponent? (sign.toList ++ digits ++ rest) = some (Decimal.exponentValue (some (letter, sign, digits)), rest) := by
  obtain ⟨hplain, hplus, hminus⟩ := exponent?_digits hne hdigits hrest
  rcases sign with _ | s
  · exact hplain
  · rcases hsign s rfl with rfl | rfl
    · exact hplus
    · exact hminus

/-- Whether there is a point, the digits behind it, and the text behind those. -/
private def pointPart : List Char → Bool × List Char × List Char
  | '.' :: r => (true, r.takeWhile Char.isDigit, r.dropWhile Char.isDigit)
  | r => (false, [], r)

private def powerPart : List Char → Option (Int × List Char)
  | c :: r => if c == 'e' || c == 'E' then exponent? r else none
  | [] => none

private theorem decimal?_eq (text : List Char) : decimal? text =
    let left := text.takeWhile Char.isDigit
    let point := pointPart (text.dropWhile Char.isDigit)
    let nearest (e : Int) : Double := .ofDecimal false (Text.numeral (left ++ point.2.1)) (e - point.2.1.length)
    if left.isEmpty && point.2.1.isEmpty then none
    else match powerPart point.2.2 with
      | some (e, rest) => some (nearest e, rest)
      | none => some (if point.1 then nearest 0 else whole 10 (left.map Text.digitValue), point.2.2) := rfl

private theorem powerPart_text (hn : n.WellFormed) (hrest : Delimited rest) :
    powerPart (Decimal.exponentText n.exponent ++ rest) =
      n.exponent.map fun _ => (Decimal.exponentValue n.exponent, rest) := by
  rcases hexp : n.exponent with _ | ⟨letter, sign, digits⟩
  · cases rest with
    | nil => rfl
    | cons c rest =>
      have hc : (c == 'e' || c == 'E') = false := by
        rcases hrest c rfl with rfl | rfl | rfl <;> decide
      exact if_neg (by simp [hc])
  · obtain ⟨hletter, hsign, hne, hdigits⟩ := hn.exponent _ hexp
    have hmark : (letter == 'e' || letter == 'E') = true := by simpa using hletter
    exact (if_pos hmark).trans (exponent?_text hsign hne hdigits hrest)

private theorem pointPart_text (hn : n.WellFormed) (hrest : Delimited rest) :
    pointPart (Decimal.fractionText n.fraction ++ (Decimal.exponentText n.exponent ++ rest)) =
      (n.fraction.isSome, n.fraction.getD [], Decimal.exponentText n.exponent ++ rest) := by
  have hhead := Grammar.exponent_head hn hrest
  rcases hfrac : n.fraction with _ | digits
  · simp only [Decimal.fractionText, List.nil_append]
    unfold pointPart
    split
    · rename_i h
      exact absurd rfl (hhead '.' (by rw [h]; rfl)).2
    · rfl
  · obtain ⟨htake, hdrop⟩ := span_append (hn.fraction _ hfrac) fun c hc => (hhead c hc).1
    simp only [Decimal.fractionText, List.cons_append, pointPart, htake, hdrop]
    rfl

/-- Reading a decimal gives the number that it is nearest to, or its digits where there are only digits. -/
theorem decimal?_text (hn : n.WellFormed) (hrest : Delimited rest) :
    decimal? (n.text ++ rest) = some (if n.fraction.isSome || n.exponent.isSome then n.toDouble false
      else whole 10 (n.whole.map Text.digitValue), rest) := by
  obtain ⟨htake, hdrop⟩ := span_append hn.whole (Grammar.fraction_head hn hrest)
  have hne : (n.whole.isEmpty && (n.fraction.getD []).isEmpty) = false := by
    have := hn.digits
    simp only [ne_eq, List.append_eq_nil_iff] at this
    simpa using this
  rw [decimal?_eq]
  simp only [Decimal.text, List.append_assoc, htake, hdrop, pointPart_text hn hrest, powerPart_text hn hrest, hne,
    Bool.false_eq_true, if_false]
  rcases hexp : n.exponent with _ | x
  · rcases hfrac : n.fraction with _ | digits
    · simp [Decimal.exponentText]
    · simp [Decimal.toDouble, Decimal.mantissa, Decimal.power, Decimal.exponentValue, Decimal.exponentText, hfrac,
        hexp]
  · simp [Decimal.toDouble, Decimal.mantissa, Decimal.power, hexp]

/-- What a numeral is read as. -/
def value (n : Decimal) : Double :=
  if n.fraction.isSome || n.exponent.isSome then n.toDouble false else whole 10 (n.whole.map Text.digitValue)

/-- Digits before the point, without a leading zero. -/
def Leading (n : Decimal) : Prop := ∃ c t, n.whole = c :: t ∧ (c = '0' → t = [])

private theorem tail_head (hn : n.WellFormed) (hrest : Delimited rest) :
    ∀ c ∈ (Decimal.fractionText n.fraction ++ (Decimal.exponentText n.exponent ++ rest)).head?,
      c.isDigit = false ∧ base? c = none := by
  rcases n.fraction with _ | digits
  · rcases hexp : n.exponent with _ | ⟨letter, sign, digits⟩
    · intro c hc
      rcases hrest c hc with rfl | rfl | rfl <;> exact ⟨by decide, rfl⟩
    · intro c hc
      obtain rfl := Option.some.inj hc
      rcases (hn.exponent _ hexp).1 with rfl | rfl <;> exact ⟨by decide, rfl⟩
  · intro c hc
    obtain rfl := Option.some.inj hc
    exact ⟨by decide, rfl⟩

private theorem first?_eq_decimal? {c : Char} {tail : List Char}
    (h : c = '0' → ∀ d ∈ tail.head?, base? d = none) : first? (c :: tail) = decimal? (c :: tail) := by
  unfold first?
  split
  · rename_i d tail' heq
    obtain ⟨rfl, rfl⟩ := List.cons_eq_cons.1 heq
    rw [h rfl d rfl]
  · rfl

private theorem number_eq_plain {c : Char} {tail : List Char}
    (h : c = '0' → ∀ d ∈ tail.head?, d.isDigit = false) :
    Token.number (c :: tail) = Token.number.plain (c :: tail) := by
  unfold Token.number
  split
  · rename_i d tail' heq
    obtain ⟨rfl, rfl⟩ := List.cons_eq_cons.1 heq
    rw [h rfl d rfl]
    rfl
  · rfl

/-- A numeral in front of a mark is one token. -/
theorem number_text (hn : n.WellFormed) (hlead : Leading n) (hrest : Delimited rest) :
    Token.number (n.text ++ rest) = .ok (.ofDouble (value n), rest) := by
  have hread := decimal?_text hn hrest
  have htail := tail_head hn hrest
  have hword : rest.head?.any isWordPart = false := by
    rcases rest with _ | ⟨c, rest⟩
    · rfl
    · exact hrest.not_isWordPart c rfl
  obtain ⟨c, t, hwhole, hzero⟩ := hlead
  have htext : n.text ++ rest =
      c :: (t ++ (Decimal.fractionText n.fraction ++ (Decimal.exponentText n.exponent ++ rest))) := by
    simp [Decimal.text, hwhole]
  rw [htext] at hread ⊢
  rw [number_eq_plain, Token.number.plain, first?_eq_decimal?, hread]
  · exact if_neg (by simp [hword])
  · rintro h
    rw [hzero h]
    exact fun d hd => (htail d hd).2
  · rintro h
    rw [hzero h]
    exact fun d hd => (htail d hd).1

private theorem leading_take {d k : Nat} (hd : d ≠ 0) (hk : 0 < k) (more : List Char) :
    ∃ c t, (Text.decimal d).take k ++ more = c :: t ∧ (c = '0' → t = []) := by
  rcases hds : Text.decimal d with _ | ⟨c, t⟩
  · exact absurd hds (Text.decimal_ne_nil d)
  · obtain ⟨k, rfl⟩ := Nat.exists_eq_add_one.2 hk
    have hc : c ≠ '0' := Text.decimal_head hd c (by rw [hds]; rfl)
    exact ⟨c, t.take k ++ more, rfl, fun h => absurd h hc⟩

theorem leading_decimal (n : Nat) : Leading ⟨Text.decimal n, none, none⟩ := by
  rcases Nat.eq_zero_or_pos n with rfl | hpos
  · exact ⟨'0', [], by rw [Text.decimal, if_pos (by decide)]; rfl, fun _ => rfl⟩
  · have := leading_take hpos.ne' (List.length_pos_iff.2 (Text.decimal_ne_nil n)) []
    rwa [List.append_nil, List.take_length] at this

private theorem leading_written (l : Double.Layout) {d : Nat} (hd : d ≠ 0) (e : Int) : Leading (l.written d e) := by
  have htake (k : Nat) (hk : 0 < k) := leading_take hd hk []
  simp only [List.append_nil] at htake
  unfold Leading Double.Layout.written
  dsimp only
  split
  · split
    · exact ⟨'0', [], rfl, fun _ => rfl⟩
    · split
      · have := leading_take hd (List.length_pos_iff.2 (Text.decimal_ne_nil d))
          (List.replicate (((Text.decimal d).length : Int) + e - (Text.decimal d).length).toNat '0')
        rwa [List.take_length] at this
      · exact htake _ (by omega)
  · exact htake 1 Nat.one_pos

/-- In expressions every number has a point or an exponent. -/
private theorem marked_written (d : Nat) (e : Int) :
    ((Double.Layout.expression.written d e).fraction.isSome ||
      (Double.Layout.expression.written d e).exponent.isSome) = true := by
  unfold Double.Layout.written
  dsimp only
  split_ifs <;> first | rfl | contradiction

theorem leading_number (l : Double.Layout) {x : Double} (hx : x.isFinite = true) : Leading (x.written l) := by
  unfold Double.written
  split
  · exact ⟨'0', [], rfl, fun _ => rfl⟩
  · rename_i h0
    refine leading_written _ (fun h => h0 ?_) _
    have hreads := Double.shortest_reads hx l.choice
    rw [h] at hreads
    simpa [Double.isZero, Double.decimalMagnitude, BinaryFormat.round] using hreads.symm

/-- What is written of a number begins with a digit. -/
theorem written_cons {x : Double} (hx : x.isFinite = true) :
    ∃ c t, (x.written .expression).text = c :: t ∧ c.isDigit = true := by
  obtain ⟨c, t, hwhole, -⟩ := leading_number _ hx
  exact ⟨c, _, by rw [Decimal.text, hwhole]; rfl, (Double.written_wellFormed _ x).whole c (by rw [hwhole]; simp)⟩

theorem number_written {x : Double} (hx : x.isFinite = true) (hrest : Delimited rest) :
    Token.number ((x.written .expression).text ++ rest) = .ok (.ofDouble (.ofParts false x.magnitude), rest) := by
  have hvalue : value (x.written .expression) = .ofParts false x.magnitude := by
    have hmarked : ((x.written .expression).fraction.isSome || (x.written .expression).exponent.isSome) = true := by
      unfold Double.written
      split
      · rfl
      · exact marked_written _ _
    rw [value, if_pos hmarked, Double.written_magnitude _ hx]
  rw [number_text (Double.written_wellFormed _ x) (leading_number _ hx) hrest, hvalue]

private theorem accumulate_digits {ds : List Char} (hroom : Text.numeral ds ≤ room 10) :
    accumulate 10 (ds.map Text.digitValue) = (Text.numeral ds, 0) := by
  induction ds using List.reverseRecOn with
  | nil => rfl
  | append_singleton ds c ih =>
    have hstep := Text.numeral_append_digit ds c
    have hle : Text.numeral ds ≤ room 10 := by omega
    have hds := ih hle
    unfold accumulate at hds ⊢
    rw [List.map_append, List.foldl_append, hds, hstep]
    simp [hle]

/-- The digits of a handle are read as the handle. -/
theorem number_index {n : Nat} (hlt : n < 2 ^ 32) (hrest : Delimited rest) :
    Token.number (Text.decimal n ++ rest) = .ok (.ofDouble (.ofNat n), rest) := by
  have hdigits : ∀ c ∈ Text.decimal n, c.isDigit = true := fun _ => Text.isDigit_of_mem_decimal
  have hwf : (⟨Text.decimal n, none, none⟩ : Decimal).WellFormed :=
    ⟨hdigits, by simp, by simp [Text.decimal_ne_nil], by simp⟩
  have hvalue : value ⟨Text.decimal n, none, none⟩ = Double.ofNat n := by
    have hroom : Text.numeral (Text.decimal n) ≤ room 10 := by
      rw [Text.numeral_decimal, room]
      omega
    simp [value, whole, accumulate_digits hroom, Text.numeral_decimal]
  have htext : (⟨Text.decimal n, none, none⟩ : Decimal).text = Text.decimal n := by
    simp [Decimal.text, Decimal.fractionText, Decimal.exponentText]
  rw [← hvalue, ← number_text hwf (leading_decimal n) hrest, htext]

end ScriptBridge.Script.Numeral
