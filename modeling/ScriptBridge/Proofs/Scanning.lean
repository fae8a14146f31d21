import ScriptBridge.Proofs.Numerals
import ScriptBridge.Script.Token

/-! Scanning of rendered values. What is written of a value is passed as the tokens that it was made of, whatever
delimiter stands behind it. -/
namespace ScriptBridge

open Grammar (Delimited span_append)

namespace Script.Token

def plain (k : TokenKind) : Token := ⟨k, false⟩

/-- A text in front of another one is passed as these tokens, all on one line. -/
def Scans (text : List Char) (ks : List TokenKind) (rest : List Char) : Prop :=
  ∀ found fuel, (text ++ rest).length ≤ fuel → ∃ fuel', rest.length ≤ fuel' ∧
    scanFrom found false fuel (text ++ rest) = scanFrom ((ks.map plain).reverse ++ found) false fuel' rest

theorem Scans.nil (rest : List Char) : Scans [] [] rest := fun _ fuel hfuel => ⟨fuel, hfuel, rfl⟩

theorem Scans.append {as bs rest : List Char} {ks ls : List TokenKind} (ha : Scans as ks (bs ++ rest))
    (hb : Scans bs ls rest) : Scans (as ++ bs) (ks ++ ls) rest := by
  intro found fuel hfuel
  rw [List.append_assoc] at hfuel ⊢
  obtain ⟨fuel', hfuel', hfirst⟩ := ha found fuel hfuel
  obtain ⟨fuel'', hfuel'', hsecond⟩ := hb ((ks.map plain).reverse ++ found) fuel' hfuel'
  exact ⟨fuel'', hfuel'', by rw [hfirst, hsecond]; simp⟩

/-- A token takes its text, wherever a line ended in front of it. -/
theorem scanFrom_token {c : Char} {t rest : List Char} {k : TokenKind} (hblank : isBlank c = false) (hslash : c ≠ '/')
    (h : first c (t ++ rest) = (k, rest)) (found : List Token) (newLine : Bool) (fuel : Nat) :
    scanFrom found newLine (fuel + 1) (c :: t ++ rest) = scanFrom (⟨k, newLine⟩ :: found) false fuel rest := by
  rw [List.cons_append, scanFrom]
  simp only [hblank, hslash, Bool.false_eq_true, if_false, false_and, h]

theorem Scans.token {c : Char} {t rest : List Char} {k : TokenKind} (hblank : isBlank c = false) (hslash : c ≠ '/')
    (h : first c (t ++ rest) = (k, rest)) : Scans (c :: t) [k] rest := by
  intro found fuel hfuel
  obtain ⟨fuel, rfl⟩ : ∃ n, fuel = n + 1 := Nat.exists_eq_add_one.2 (Nat.lt_of_lt_of_le (by simp) hfuel)
  refine ⟨fuel, ?_, scanFrom_token hblank hslash h found false fuel⟩
  simp only [List.length_cons, List.cons_append, List.length_append] at hfuel
  omega

theorem Scans.blank {c : Char} (hc : isBlank c = true) (hend : isLineEnd c = false) (rest : List Char) :
    Scans [c] [] rest := by
  intro found fuel hfuel
  obtain ⟨fuel, rfl⟩ : ∃ n, fuel = n + 1 := Nat.exists_eq_add_one.2 (Nat.lt_of_lt_of_le (by simp) hfuel)
  refine ⟨fuel, Nat.le_of_succ_le_succ hfuel, ?_⟩
  rw [List.singleton_append, scanFrom, if_pos hc, hend]
  rfl

/-- A text that is passed to its end has no other tokens. -/
theorem Scans.scan {text : List Char} {ks : List TokenKind} (h : Scans text ks []) : scan text = ks.map plain := by
  obtain ⟨fuel, -, hscan⟩ := h [] text.length (by simp)
  have hend (found : List Token) : scanFrom found false fuel [] = found.reverse := by cases fuel <;> rfl
  rw [List.append_nil, hend] at hscan
  rw [Token.scan, hscan]
  simp

/-- The marks that arguments are made of. -/
def argumentMarks : List Char := ['(', ')', '[', ']', ',', ';', '-']

/-- The characters that operators begin with. -/
def operatorStarts : List Char := ['=', '&', '|', '!']

private theorem marks_spec {c : Char} (hc : c ∈ argumentMarks ++ operatorStarts) : isBlank c = false ∧ c ≠ '/' ∧
    c ≠ '\'' ∧ c ≠ '"' ∧ c ≠ '.' ∧ c.isDigit = false ∧ isWordStart c = false := by
  have hall : (argumentMarks ++ operatorStarts).all (fun c => decide (isBlank c = false ∧ c ≠ '/' ∧ c ≠ '\'' ∧ c ≠ '"' ∧
      c ≠ '.' ∧ c.isDigit = false ∧ isWordStart c = false)) = true := by decide +kernel
  exact of_decide_eq_true (List.all_eq_true.1 hall c hc)

private theorem argumentMarks_spec {c : Char} (hc : c ∈ argumentMarks) : isBlank c = false ∧ c ≠ '/' ∧ c ≠ '\'' ∧
    c ≠ '"' ∧ c ≠ '.' ∧ c.isDigit = false ∧ isWordStart c = false := marks_spec (List.mem_append_left _ hc)

/-- An operator with a blank behind it. -/
theorem scans_operator {c : Char} (hc : c ∈ operatorStarts) (cs : List Char) {m : String}
    (hm : ∀ more, mark? (c :: (cs ++ ' ' :: more)) = some m) (hlength : m.length - 1 = cs.length) (rest : List Char) :
    Scans (c :: cs) [.mark m] (' ' :: rest) := by
  obtain ⟨hblank, hslash, hquote, hdouble, hpoint, hdigit, hstart⟩ := marks_spec (List.mem_append_right _ hc)
  have hrest : (cs ++ ' ' :: rest).drop (m.length - 1) = ' ' :: rest := by rw [hlength, List.drop_left]
  refine .token hblank hslash ?_
  rw [first, if_neg (by simp [hquote, hdouble]), if_neg (by simp [hdigit, hpoint]), if_neg (by simp [hstart]), hm]
  exact congrArg (Prod.mk (TokenKind.mark m)) hrest

private theorem first_mark {c : Char} (hc : c ∈ argumentMarks) (rest : List Char) :
    first c rest = (.mark (String.singleton c), rest) := by
  obtain ⟨-, -, hquote, hdouble, hpoint, hdigit, hstart⟩ := argumentMarks_spec hc
  have hmark : mark? (c :: rest) = some (String.singleton c) := by
    simp only [argumentMarks, List.mem_cons, List.not_mem_nil, or_false] at hc
    rcases hc with rfl | rfl | rfl | rfl | rfl | rfl | rfl <;> rfl
  rw [first, if_neg (by simp [hquote, hdouble]), if_neg (by simp [hdigit, hpoint]), if_neg (by simp [hstart]), hmark]
  simp

theorem scanFrom_mark {c : Char} (hc : c ∈ argumentMarks) (found : List Token) (newLine : Bool) (fuel : Nat)
    (rest : List Char) : scanFrom found newLine (fuel + 1) (c :: rest) =
      scanFrom (⟨.mark (String.singleton c), newLine⟩ :: found) false fuel rest :=
  have hspec := argumentMarks_spec hc
  scanFrom_token (t := []) hspec.1 hspec.2.1 (first_mark hc rest) found newLine fuel

theorem scans_mark {c : Char} (hc : c ∈ argumentMarks) (rest : List Char) :
    Scans [c] [.mark (String.singleton c)] rest :=
  have hspec := argumentMarks_spec hc
  .token hspec.1 hspec.2.1 (first_mark hc rest)

/-- A point is a mark of its own, unless a digit stands behind it. -/
theorem scans_point {rest : List Char} (hdigit : rest.head?.any Char.isDigit = false) : Scans ['.'] [.mark "."] rest := by
  refine .token (by decide) (by decide) ?_
  have hstart : isWordStart '.' = false := by decide +kernel
  rw [List.nil_append, first, if_neg (by decide), hdigit, if_neg (by decide), hstart]
  rfl

private theorem identifierPart_ascii : ∀ n : Fin 0x80, isIdentifierPart (Char.ofNat n) = true →
    isBlank (Char.ofNat n) = false ∧ Char.ofNat n ≠ '/' ∧ Char.ofNat n ≠ '\'' ∧ Char.ofNat n ≠ '"' ∧
      Char.ofNat n ≠ '.' := by decide +kernel

private theorem identifierPart_spec {c : Char} (h : isIdentifierPart c = true) :
    isBlank c = false ∧ c ≠ '/' ∧ c ≠ '\'' ∧ c ≠ '"' ∧ c ≠ '.' := by
  have hascii : c.toNat < 0x80 := by
    by_contra hbeyond
    simp [isIdentifierPart_beyond (c := c) (by omega)] at h
  have := identifierPart_ascii ⟨c.toNat, hascii⟩
  simp only [Char.ofNat_toNat] at this
  exact this h

private theorem identifierPart_of_start {c : Char} (h : isIdentifierStart c = true) : isIdentifierPart c = true := by
  simp only [isIdentifierStart, Bool.or_eq_true] at h
  simp only [isIdentifierPart, Char.isAlphanum, Bool.or_eq_true]
  rcases h with (h | h) | h <;> simp [h]

/-- The stretches of the blanks beyond ASCII. -/
private def blankSpans : List (Nat × Nat) :=
  [(0xA0, 0xA0), (0x1680, 0x1680), (0x2000, 0x200A), (0x2028, 0x2029), (0x202F, 0x202F), (0x205F, 0x205F),
    (0x3000, 0x3000), (0xFEFF, 0xFEFF)]

private theorem blankSpans_avoidLetters :
    ∀ p ∈ blankSpans, Text.avoids p.1 p.2 Text.letterBoundaries = true := by decide +kernel

private theorem beginsWord_blank {c : Char} (hc : isBlank c = true) (hbeyond : 0x80 ≤ c.toNat) :
    Text.beginsWord c = false := by
  have hne : c ≠ ' ' := by
    rintro rfl
    exact absurd hbeyond (by decide)
  obtain ⟨p, hp, hlo, hhi⟩ : ∃ p ∈ blankSpans, p.1 ≤ c.toNat ∧ c.toNat ≤ p.2 := by
    simp [isBlank, hne] at hc
    simp only [blankSpans, List.mem_cons, List.not_mem_nil, or_false, exists_eq_or_imp, exists_eq_left]
    omega
  exact Text.not_within_of_avoids (blankSpans_avoidLetters p hp) hlo hhi

/-- What begins a word begins nothing else. -/
private theorem wordStart_spec {c : Char} (h : isWordStart c = true) :
    isBlank c = false ∧ c ≠ '/' ∧ c ≠ '\'' ∧ c ≠ '"' ∧ c ≠ '.' ∧ c.isDigit = false := by
  have hdigit : c.isDigit = false := by
    by_contra hdigit
    simp [isWordStart_digit (by simpa using hdigit)] at h
  rcases Nat.lt_or_ge c.toNat 0x80 with hascii | hbeyond
  · rw [isWordStart_ascii hascii] at h
    obtain ⟨hblank, hslash, hquote, hdouble, hpoint⟩ := identifierPart_spec (identifierPart_of_start h)
    exact ⟨hblank, hslash, hquote, hdouble, hpoint, hdigit⟩
  · have hne {d : Char} (hd : d.toNat < 0x80) : c ≠ d := by
      rintro rfl
      omega
    refine ⟨?_, hne (by decide), hne (by decide), hne (by decide), hne (by decide), hdigit⟩
    by_contra hblank
    have hstart : isIdentifierStart c = false := by
      by_contra hident
      have hpart := identifierPart_of_start (Bool.not_eq_false _ ▸ hident)
      simp [isIdentifierPart_beyond hbeyond] at hpart
    rw [isWordStart, hstart, beginsWord_blank (by simpa using hblank) hbeyond] at h
    cases h

/-- A word is passed as a token of its own. -/
theorem Scans.word {w rest : List Char} (hw : IsWord w) (hrest : ∀ c ∈ rest.head?, isWordPart c = false) :
    Scans w [.word (String.ofList w)] rest := by
  cases w with
  | nil => exact hw.elim
  | cons c w =>
    obtain ⟨htake, hdrop⟩ := span_append hw.2 hrest
    obtain ⟨hblank, hslash, hquote, hdouble, hpoint, hdigit⟩ := wordStart_spec hw.1
    refine .token hblank hslash ?_
    rw [first, if_neg (by simp [hquote, hdouble]), if_neg (by simp [hdigit, hpoint]), if_pos hw.1, htake, hdrop]

theorem scans_word {w rest : List Char} (hw : isIdentifier w = true) (hrest : ∀ c ∈ rest.head?, isWordPart c = false) :
    Scans w [.word (String.ofList w)] rest := .word (isWord_of_isIdentifier hw) hrest

private theorem escape?_escapes : ∀ e ∈ Text.escapes, ∀ rest, escape? (e.2 :: rest) = some (Text.unitsOf e.1, 1) := by
  simp only [Text.escapes, List.forall_mem_cons]
  exact ⟨fun _ => rfl, fun _ => rfl, fun _ => rfl, fun _ => rfl, fun _ => rfl, fun _ => rfl, by simp⟩

private theorem stringRest_ofChar (c : Char) (rest : List Char) :
    stringRest '\'' 0 ((StringLiteral.ofChar c).text ++ rest) =
      (stringRest '\'' 0 rest).map fun r => (Text.unitsOf c ++ r.1, r.2) := by
  rcases StringLiteral.ofChar_cases c with ⟨d, hd, h⟩ | ⟨h, hne⟩ <;> rw [h]
  · have hescape := escape?_escapes _ hd rest
    have htext : (StringLiteral.Piece.escaped d).text ++ rest = '\\' :: d :: rest := rfl
    rw [htext, stringRest, if_neg (by decide), if_pos rfl, hescape]
    rfl
  · have htext : (StringLiteral.Piece.plain c).text ++ rest = c :: rest := rfl
    have hquote : c ≠ '\'' := hne ('\'', '\'') (by decide)
    have hslash : c ≠ '\\' := hne ('\\', '\\') (by decide)
    have hend : ¬ (c = '\n' ∨ c = '\r') := by
      rintro (hc | hc)
      · exact hne ('\n', 'n') (by decide) hc
      · exact hne ('\r', 'r') (by decide) hc
    rw [htext, stringRest, if_neg hquote, if_neg hslash, if_neg hend]

/-- An escaped text up to a quote is read as the units of the text. -/
theorem stringRest_escape (s rest : List Char) :
    stringRest '\'' 0 (Text.escape s ++ '\'' :: rest) = .ok (Text.units s, rest) := by
  induction s with
  | nil => rfl
  | cons c s ih =>
    have hcons : Text.escape (c :: s) ++ '\'' :: rest =
        (StringLiteral.ofChar c).text ++ (Text.escape s ++ '\'' :: rest) := by
      rw [Text.escape_eq_flatMap, List.flatMap_cons, ← Text.escape_eq_flatMap, StringLiteral.ofChar_text,
        List.append_assoc]
    rw [hcons, stringRest_ofChar, ih]
    rfl

theorem scans_quoted (s : String) (rest : List Char) : Scans (Expression.quoted s) [.string (.text s)] rest := by
  have htext : Text.escape s.toList ++ ['\''] ++ rest = Text.escape s.toList ++ '\'' :: rest := by simp
  refine Scans.token (t := Text.escape s.toList ++ ['\'']) (by decide) (by decide) ?_
  rw [first, if_pos (.inl rfl), htext, stringRest_escape]
  simp only [Content.ofUnits, Text.ofUnits?_units, String.ofList_toList]

theorem scans_number {c : Char} {t rest : List Char} {x : Number} (hc : c.isDigit = true)
    (h : number (c :: t ++ rest) = .ok (x, rest)) : Scans (c :: t) [.number x] rest := by
  obtain ⟨hblank, hslash, hquote, hdouble, -⟩ := identifierPart_spec (c := c) (by
    simp [isIdentifierPart, Char.isAlphanum, hc])
  refine .token hblank hslash ?_
  rw [List.cons_append] at h
  rw [first, if_neg (by simp [hquote, hdouble]), if_pos (by simp [hc]), h]

end Script.Token

open Script (Number TokenKind)
open Script.Token (Scans)

/-- The tokens of a number. -/
def Double.tokens (x : Double) : List TokenKind :=
  if x.isNaN then [.word "NaN"]
  else (if x.negative then [.mark "-"] else []) ++
    [if x.isInfinite then .word "Infinity" else .number (.ofDouble (.ofParts false x.magnitude))]

mutual
/-- The tokens of a value as an expression. -/
def Native.tokens (table : String) (owner : Option Session) : Native → List TokenKind
  | .null => [.word "null"]
  | .bool b => [.word (if b then "true" else "false")]
  | .int n => (Double.ofInt n.toInt).tokens
  | .long n => (Double.ofInt n.toInt).tokens
  | .double x => x.tokens
  | .text s => [.string (.text s)]
  | .array items => .mark "[" :: itemTokens table owner items ++ [.mark "]"]
  | .ref r =>
    if Expression.nameable owner r then
      [.word table, .mark "[", .number (.ofDouble (.ofNat r.handle.index)), .mark "]"]
    else [.word "null"]
  | .foreign _ => [.word "null"]

def Native.itemTokens (table : String) (owner : Option Session) : List Native → List TokenKind
  | [] => []
  | [v] => v.tokens table owner
  | v :: rest => v.tokens table owner ++ .mark "," :: itemTokens table owner rest
end

namespace Script.Token

variable {table : String} {owner : Option Session} {rest : List Char}

theorem text_eq_magnitude {x : Double} (hnan : x.isNaN = false) :
    x.text .expression = (if x.negative then ['-'] else []) ++
      if x.isInfinite then Grammar.infinity else (x.written .expression).text := by
  cases hinf : x.isInfinite with
  | true =>
    simp only [Double.text, hnan, hinf, Bool.false_eq_true, if_false, if_true]
    cases x.negative <;> rfl
  | false => exact Double.text_eq_written rfl (Double.isFinite_of_not hnan hinf)

private theorem scans_magnitude {x : Double} (hnan : x.isNaN = false) (hrest : Delimited rest) :
    Scans (if x.isInfinite then Grammar.infinity else (x.written .expression).text)
      [if x.isInfinite then .word "Infinity" else .number (.ofDouble (.ofParts false x.magnitude))] rest := by
  cases hinf : x.isInfinite with
  | true => exact scans_word (w := Grammar.infinity) (by decide) hrest.not_isWordPart
  | false =>
    have hfin := Double.isFinite_of_not hnan hinf
    obtain ⟨c, t, hct, hc⟩ := Numeral.written_cons hfin
    have hread := Numeral.number_written hfin hrest
    simp only [Bool.false_eq_true, if_false]
    rw [hct] at hread ⊢
    exact scans_number hc hread

private theorem scans_double (x : Double) (hrest : Delimited rest) : Scans (x.text .expression) x.tokens rest := by
  cases hnan : x.isNaN with
  | true =>
    rw [Double.text, Double.tokens, if_pos hnan, if_pos hnan]
    exact scans_word (w := Grammar.nan) (by decide) hrest.not_isWordPart
  | false =>
    have hmagnitude := scans_magnitude hnan hrest
    rw [text_eq_magnitude hnan]
    simp only [Double.tokens, hnan, Bool.false_eq_true, if_false]
    cases x.negative with
    | true => exact (scans_mark (c := '-') (by decide) _).append hmagnitude
    | false => exact hmagnitude

private theorem scans_index (h : Handle) (hrest : Delimited rest) :
    Scans h.numeralText [.number (.ofDouble (.ofNat h.index))] rest := by
  have hread := Numeral.number_index (n := h.index) h.raw.toNat_lt hrest
  rcases hds : h.numeralText with _ | ⟨c, t⟩
  · exact absurd hds (Text.decimal_ne_nil _)
  · have hc : c.isDigit = true := Text.isDigit_of_mem_decimal (n := h.index) (by
      have : c ∈ h.numeralText := by simp [hds]
      exact this)
    rw [Handle.numeralText] at hds
    rw [hds] at hread
    exact scans_number hc hread

theorem scans_reference (htable : isIdentifier table.toList = true) (h : Handle) (rest : List Char) :
    Scans (Expression.reference table h)
      [.word table, .mark "[", .number (.ofDouble (.ofNat h.index)), .mark "]"] rest := by
  have hname (more : List Char) : Scans table.toList [.word table] ('[' :: more) := by
    have hhead : ∀ c ∈ ('[' :: more).head?, isWordPart c = false := by
      intro c hc
      obtain rfl := Option.some.inj hc
      decide +kernel
    have hword := scans_word htable hhead
    rwa [String.ofList_toList] at hword
  have hclose : Scans [']'] [.mark "]"] rest := scans_mark (by decide) rest
  have hindex := (scans_index h  fun c hc => by
    obtain rfl := Option.some.inj hc
    exact .inr (.inl rfl)).append hclose
  have hopen := (scans_mark (c := '[') (by decide) _).append hindex
  have htext : Expression.reference table h = table.toList ++ (['['] ++ (h.numeralText ++ [']'])) := by
    simp [Expression.reference]
  rw [htext]
  exact (hname _).append hopen

mutual
theorem scans_argument (htable : isIdentifier table.toList = true) (owner : Option Session) (v : Native)
    {rest : List Char} (hrest : Delimited rest) :
    Scans (Expression.argument table owner v) (v.tokens table owner) rest := by
  match v with
  | .null => exact scans_word (w := Expression.null) (by decide) hrest.not_isWordPart
  | .bool true => exact scans_word (w := Expression.truth true) (by decide) hrest.not_isWordPart
  | .bool false => exact scans_word (w := Expression.truth false) (by decide) hrest.not_isWordPart
  | .int _ => exact scans_double _ hrest
  | .long _ => exact scans_double _ hrest
  | .double x => exact scans_double x hrest
  | .text s => exact scans_quoted s rest
  | .array items =>
    have hitems := scans_arguments htable owner items (.inl rfl) rest
    have hclose : Scans [']'] [.mark "]"] rest := scans_mark (by decide) rest
    exact (scans_mark (c := '[') (by decide) _).append (Scans.append hitems hclose)
  | .ref r =>
    rw [Expression.argument, Native.tokens]
    split
    · exact scans_reference htable r.handle rest
    · exact scans_word (w := Expression.null) (by decide) hrest.not_isWordPart
  | .foreign _ => exact scans_word (w := Expression.null) (by decide) hrest.not_isWordPart

theorem scans_arguments (htable : isIdentifier table.toList = true) (owner : Option Session) (vs : List Native)
    {close : Char} (hclose : close = ']' ∨ close = ')') (rest : List Char) :
    Scans (Expression.separated (Expression.arguments table owner vs)) (Native.itemTokens table owner vs)
      (close :: rest) := by
  match vs with
  | [] => exact .nil _
  | [v] =>
    refine scans_argument htable owner v fun c hc => ?_
    obtain rfl := Option.some.inj hc
    exact .inr hclose
  | v :: w :: more =>
    have hmore := scans_arguments htable owner (w :: more) hclose rest
    have hcomma := (scans_mark (c := ',') (by decide) _).append hmore
    refine (scans_argument htable owner v fun c hc => ?_).append hcomma
    obtain rfl := Option.some.inj hc
    exact .inl rfl
end

end Script.Token
end ScriptBridge
