import ScriptBridge.Proofs.Decimals
import ScriptBridge.Proofs.StringLiteral
import ScriptBridge.Proofs.Words

/-! The grammar of calls: a slot of the table, a member, and arguments that are constants, numbers, strings,
lists and slots. No two trees of the grammar have one text, whatever the table and the members are called. -/
namespace ScriptBridge.Grammar

open Double (Decimal)
open Script (IsWord isWordPart isWordStart)
open StringLiteral (Piece)

inductive Element where
  | null
  | truth (b : Bool)
  | nan
  | infinity (negative : Bool)
  | number (negative : Bool) (n : Decimal)
  | string (pieces : List Piece)
  | list (items : List Element)
  | slot (index : List Char)

/-- Decimal digits, at least one. -/
def IsIndex (ds : List Char) : Prop := ds ≠ [] ∧ ∀ c ∈ ds, c.isDigit = true

def nan : List Char := ['N', 'a', 'N']

def infinity : List Char := ['I', 'n', 'f', 'i', 'n', 'i', 't', 'y']

def sign (negative : Bool) : List Char := if negative then ['-'] else []

namespace Element

mutual
def text (table : List Char) : Element → List Char
  | .null => Expression.null
  | .truth b => Expression.truth b
  | .nan => Grammar.nan
  | .infinity negative => sign negative ++ Grammar.infinity
  | .number negative n => sign negative ++ n.text
  | .string pieces => '\'' :: StringLiteral.text pieces ++ ['\'']
  | .list items => '[' :: Expression.separated (texts table items) ++ [']']
  | .slot index => table ++ '[' :: index ++ [']']

def texts (table : List Char) : List Element → List (List Char)
  | [] => []
  | e :: rest => e.text table :: texts table rest
end

mutual
def WellFormed : Element → Prop
  | .number _ n => n.WellFormed
  | .string pieces => StringLiteral.WellFormed pieces
  | .list items => AllWellFormed items
  | .slot index => IsIndex index
  | _ => True

def AllWellFormed : List Element → Prop
  | [] => True
  | e :: rest => e.WellFormed ∧ AllWellFormed rest
end

end Element

/-- A read of a property, or a call with arguments. -/
structure Call where
  index : List Char
  name : List Char
  arguments : Option (List Element)

namespace Call

def argumentsText (table : List Char) : Option (List Element) → List Char
  | none => []
  | some es => '(' :: Expression.separated (Element.texts table es) ++ [')']

def text (table : List Char) (c : Call) : List Char :=
  table ++ '[' :: c.index ++ ']' :: '.' :: c.name ++ argumentsText table c.arguments

structure WellFormed (c : Call) : Prop where
  index : IsIndex c.index
  name : IsWord c.name
  arguments : ∀ es ∈ c.arguments, Element.AllWellFormed es

end Call

def readFraction : List Char → Option (List Char) × List Char
  | '.' :: rest => (some (rest.takeWhile Char.isDigit), rest.dropWhile Char.isDigit)
  | rest => (none, rest)

def readSign : List Char → Option Char × List Char
  | '+' :: rest => (some '+', rest)
  | '-' :: rest => (some '-', rest)
  | rest => (none, rest)

def readExponent : List Char → Option (Char × Option Char × List Char) × List Char
  | [] => (none, [])
  | letter :: rest =>
    if letter = 'e' ∨ letter = 'E' then
      (some (letter, (readSign rest).1, (readSign rest).2.takeWhile Char.isDigit),
        (readSign rest).2.dropWhile Char.isDigit)
    else (none, letter :: rest)

/-- The decimal at the front of a text, and the text behind it. -/
def readDecimal (text : List Char) : Decimal × List Char :=
  let (fraction, rest) := readFraction (text.dropWhile Char.isDigit)
  let (exponent, rest) := readExponent rest
  (⟨text.takeWhile Char.isDigit, fraction, exponent⟩, rest)

/-- The word at the front of a text, or the slot that it is the table of. -/
def readWord (text : List Char) : Option (Element × List Char) :=
  match text.dropWhile isWordPart with
  | '[' :: rest => some (.slot (rest.takeWhile Char.isDigit), (rest.dropWhile Char.isDigit).drop 1)
  | rest =>
    ([(Expression.null, .null), (Expression.truth true, .truth true), (Expression.truth false, .truth false),
      (nan, .nan), (infinity, .infinity false)].lookup (text.takeWhile isWordPart)).map fun e => (e, rest)

mutual
/-- The element at the front of a text, and the text behind it. -/
def readElement : (fuel : Nat) → List Char → Option (Element × List Char)
  | 0, _ => none
  | _ + 1, [] => none
  | fuel + 1, c :: rest =>
    if c = '\'' then (StringLiteral.read (rest.length + 1) rest).map fun r => (.string r.1, r.2)
    else if c = '[' then (readItems fuel ']' rest).map fun r => (.list r.1, r.2)
    else if c = '-' then
      if rest.head?.any isWordStart then some (.infinity true, rest.dropWhile isWordPart)
      else some (.number true (readDecimal rest).1, (readDecimal rest).2)
    else if isWordStart c then readWord (c :: rest)
    else some (.number false (readDecimal (c :: rest)).1, (readDecimal (c :: rest)).2)

/-- The elements up to a closing mark, and the text behind it. -/
def readItems : (fuel : Nat) → (close : Char) → List Char → Option (List Element × List Char)
  | 0, _, _ => none
  | fuel + 1, close, text =>
    if text.head? = some close then some ([], text.drop 1)
    else
      match readElement fuel text with
      | none => none
      | some (e, rest) =>
        if rest.head? = some ',' then (readItems fuel close (rest.drop 1)).map fun r => (e :: r.1, r.2)
        else some ([e], rest.drop 1)
end

/-- What stands behind an element: the end of the text, a comma or a closing mark. -/
def Delimited (rest : List Char) : Prop := ∀ c ∈ rest.head?, c = ',' ∨ c = ']' ∨ c = ')'

theorem Delimited.not {rest : List Char} (h : Delimited rest) {p : Char → Bool} (hcomma : p ',' = false)
    (hbracket : p ']' = false) (hparen : p ')' = false) : ∀ c ∈ rest.head?, p c = false := by
  intro c hc
  rcases h c hc with rfl | rfl | rfl <;> assumption

theorem span_append {p : Char → Bool} {cs rest : List Char} (hcs : ∀ c ∈ cs, p c = true)
    (hrest : ∀ c ∈ rest.head?, p c = false) :
    (cs ++ rest).takeWhile p = cs ∧ (cs ++ rest).dropWhile p = rest := by
  rw [List.takeWhile_append_of_pos hcs, List.dropWhile_append_of_pos hcs]
  cases rest with
  | nil => simp
  | cons c rest => simp [hrest c rfl]

theorem span_append_cons {p : Char → Bool} {cs : List Char} {c : Char} (hcs : ∀ d ∈ cs, p d = true) (hc : p c = false)
    (rest : List Char) : (cs ++ c :: rest).takeWhile p = cs ∧ (cs ++ c :: rest).dropWhile p = c :: rest :=
  span_append hcs fun d hd => by
    obtain rfl := Option.some.inj hd
    exact hc

/-- Two runs of the same kind of characters agree when the texts do. -/
theorem append_inj_of_span {p : Char → Bool} {as bs r s : List Char} (has : ∀ c ∈ as, p c = true)
    (hbs : ∀ c ∈ bs, p c = true) (hr : ∀ c ∈ r.head?, p c = false) (hs : ∀ c ∈ s.head?, p c = false)
    (h : as ++ r = bs ++ s) : as = bs ∧ r = s := by
  obtain ⟨ha, hra⟩ := span_append has hr
  obtain ⟨hb, hsb⟩ := span_append hbs hs
  rw [h] at ha hra
  exact ⟨ha.symm.trans hb, hra.symm.trans hsb⟩

section Decimals

variable {n : Decimal} {rest : List Char}

theorem exponent_head (hn : n.WellFormed) (hrest : Delimited rest) :
    ∀ c ∈ (Decimal.exponentText n.exponent ++ rest).head?, c.isDigit = false ∧ c ≠ '.' := by
  rcases hexp : n.exponent with _ | ⟨letter, sign, digits⟩
  · intro c hc
    rcases hrest c hc with rfl | rfl | rfl <;> exact ⟨by decide, by decide⟩
  · intro c hc
    obtain rfl := Option.some.inj hc
    rcases (hn.exponent _ hexp).1 with rfl | rfl <;> exact ⟨by decide, by decide⟩

theorem fraction_head (hn : n.WellFormed) (hrest : Delimited rest) :
    ∀ c ∈ (Decimal.fractionText n.fraction ++ (Decimal.exponentText n.exponent ++ rest)).head?, c.isDigit = false := by
  rcases n.fraction with _ | digits
  · exact fun c hc => (exponent_head hn hrest c hc).1
  · intro c hc
    obtain rfl := Option.some.inj hc
    rfl

private theorem readSign_digits {ds : List Char} (hne : ds ≠ []) (hds : ∀ c ∈ ds, c.isDigit = true) :
    readSign (ds ++ rest) = (none, ds ++ rest) := by
  cases ds with
  | nil => exact absurd rfl hne
  | cons c ds =>
    have hc := hds c (by simp)
    rw [List.cons_append]
    unfold readSign
    split
    · simp_all
    · simp_all
    · rfl

private theorem readExponent_text (hn : n.WellFormed) (hrest : Delimited rest) :
    readExponent (Decimal.exponentText n.exponent ++ rest) = (n.exponent, rest) := by
  rcases hexp : n.exponent with _ | ⟨letter, sign, digits⟩
  · cases rest with
    | nil => rfl
    | cons c rest =>
      have hc : ¬ (c = 'e' ∨ c = 'E') := by
        rcases hrest c rfl with rfl | rfl | rfl <;> decide
      exact if_neg hc
  · obtain ⟨hletter, hsign, hne, hdigits⟩ := hn.exponent _ hexp
    obtain ⟨htake, hdrop⟩ := span_append hdigits (hrest.not (by decide) (by decide) (by decide))
    have hread : readSign (sign.toList ++ digits ++ rest) = (sign, digits ++ rest) := by
      rcases sign with _ | s
      · exact readSign_digits hne hdigits
      · rcases hsign s rfl with rfl | rfl <;> rfl
    simp only [Decimal.exponentText, List.cons_append, readExponent, if_pos hletter, hread, htake, hdrop]

private theorem readFraction_text (hn : n.WellFormed) (hrest : Delimited rest) :
    readFraction (Decimal.fractionText n.fraction ++ (Decimal.exponentText n.exponent ++ rest)) =
      (n.fraction, Decimal.exponentText n.exponent ++ rest) := by
  have hhead := exponent_head hn hrest
  rcases hfrac : n.fraction with _ | digits
  · simp only [Decimal.fractionText, List.nil_append]
    unfold readFraction
    split
    · rename_i h
      exact absurd rfl (hhead '.' (by rw [h]; rfl)).2
    · rfl
  · obtain ⟨htake, hdrop⟩ := span_append (hn.fraction _ hfrac) fun c hc => (hhead c hc).1
    simp only [Decimal.fractionText, List.cons_append, readFraction, htake, hdrop]

/-- Reading a decimal stops behind it. -/
theorem readDecimal_text (hn : n.WellFormed) (hrest : Delimited rest) : readDecimal (n.text ++ rest) = (n, rest) := by
  obtain ⟨htake, hdrop⟩ := span_append hn.whole (fraction_head hn hrest)
  simp only [readDecimal, Decimal.text, List.append_assoc, htake, hdrop, readFraction_text hn hrest,
    readExponent_text hn hrest]

end Decimals

private theorem not_isWordStart {c : Char} (h : isWordStart c = true) :
    c ≠ '\'' ∧ c ≠ '[' ∧ c ≠ '-' ∧ c ≠ ']' ∧ c ≠ ')' := by
  refine ⟨?_, ?_, ?_, ?_, ?_⟩ <;> rintro rfl <;> exact absurd h (by decide +kernel)

theorem Delimited.not_isWordPart {rest : List Char} (h : Delimited rest) :
    ∀ c ∈ rest.head?, isWordPart c = false := h.not (by decide +kernel) (by decide +kernel) (by decide +kernel)

section Elements

variable {table rest : List Char}

private theorem readElement_word {w : List Char} (hw : IsWord w) (fuel : Nat) :
    readElement (fuel + 1) (w ++ rest) = readWord (w ++ rest) := by
  cases w with
  | nil => exact hw.elim
  | cons c w =>
    obtain ⟨hquote, hlist, hminus, -⟩ := not_isWordStart hw.1
    simp only [List.cons_append, readElement, hquote, hlist, hminus, hw.1, if_true, if_false]

private theorem readWord_constant {w : List Char} (hw : IsWord w) (hrest : Delimited rest) :
    readWord (w ++ rest) =
      ([(Expression.null, .null), (Expression.truth true, .truth true), (Expression.truth false, .truth false),
        (nan, .nan), (infinity, .infinity false)].lookup w).map fun e => (e, rest) := by
  obtain ⟨htake, hdrop⟩ := span_append hw.part hrest.not_isWordPart
  unfold readWord
  rw [htake, hdrop]
  split
  · rename_i h
    rcases hrest '[' (by simp) with h | h | h <;> cases h
  · rfl

private theorem readWord_slot {index : List Char} (htable : IsWord table) (hindex : IsIndex index) :
    readWord (table ++ '[' :: index ++ [']'] ++ rest) = some (.slot index, rest) := by
  have happ : table ++ '[' :: index ++ [']'] ++ rest = table ++ '[' :: (index ++ ']' :: rest) := by simp
  obtain ⟨-, hdrop⟩ := span_append_cons htable.part (by decide +kernel : isWordPart '[' = false) (index ++ ']' :: rest)
  obtain ⟨hdigits, hbehind⟩ := span_append_cons hindex.2 (by decide : (']').isDigit = false) rest
  rw [happ]
  unfold readWord
  rw [hdrop]
  simp only [hdigits, hbehind, List.drop_one, List.tail_cons]

private theorem readElement_constant {w : List Char} {e : Element} (hw : isIdentifier w = true)
    (hlookup : [(Expression.null, Element.null), (Expression.truth true, .truth true),
      (Expression.truth false, .truth false), (nan, .nan), (infinity, .infinity false)].lookup w = some e)
    (hrest : Delimited rest) (fuel : Nat) : readElement (fuel + 1) (w ++ rest) = some (e, rest) := by
  have hword := Script.isWord_of_isIdentifier hw
  rw [readElement_word hword, readWord_constant hword hrest, hlookup]
  rfl

private theorem decimal_head {n : Decimal} (hn : n.WellFormed) :
    ∃ c t, n.text = c :: t ∧ (c.isDigit = true ∨ c = '.') := by
  rcases hw : n.whole with _ | ⟨c, whole⟩
  · rcases hf : n.fraction with _ | digits
    · exact absurd (by rw [hw, hf]; rfl) hn.digits
    · exact ⟨'.', _, by rw [Decimal.text, hw, hf]; rfl, .inr rfl⟩
  · exact ⟨c, _, by rw [Decimal.text, hw]; rfl, .inl (hn.whole c (by rw [hw]; simp))⟩

private theorem not_decimal_head {c : Char} (h : c.isDigit = true ∨ c = '.') :
    c ≠ '\'' ∧ c ≠ '[' ∧ c ≠ '-' ∧ c ≠ ']' ∧ c ≠ ')' ∧ isWordStart c = false := by
  rcases h with h | rfl
  · refine ⟨?_, ?_, ?_, ?_, ?_, Script.isWordStart_digit h⟩ <;> rintro rfl <;> cases h
  · exact ⟨by decide, by decide, by decide, by decide, by decide, by decide +kernel⟩

private theorem readElement_number {n : Decimal} (hn : n.WellFormed) (hrest : Delimited rest) (negative : Bool)
    (fuel : Nat) : readElement (fuel + 1) ((Element.number negative n).text table ++ rest) =
      some (.number negative n, rest) := by
  obtain ⟨c, t, hct, hc⟩ := decimal_head hn
  obtain ⟨hquote, hlist, hminus, -, -, hstart⟩ := not_decimal_head hc
  have hread := readDecimal_text hn hrest
  rw [hct] at hread
  cases negative with
  | true =>
    have happ : (Element.number true n).text table ++ rest = '-' :: (c :: t ++ rest) := by
      simp [Element.text, sign, hct]
    rw [happ, readElement, hread]
    simp [hstart]
  | false =>
    have happ : (Element.number false n).text table ++ rest = c :: (t ++ rest) := by
      simp [Element.text, sign, hct]
    rw [List.cons_append] at hread
    rw [happ, readElement, hread]
    simp [hquote, hlist, hminus, hstart]

private theorem readElement_infinity (hrest : Delimited rest) (negative : Bool) (fuel : Nat) :
    readElement (fuel + 1) ((Element.infinity negative).text table ++ rest) = some (.infinity negative, rest) := by
  cases negative with
  | true =>
    have hword : IsWord infinity := Script.isWord_of_isIdentifier (by decide)
    obtain ⟨-, hdrop⟩ := span_append hword.part hrest.not_isWordPart
    have hstart : (infinity ++ rest).head?.any isWordStart = true := hword.1
    have happ : (Element.infinity true).text table ++ rest = '-' :: (infinity ++ rest) := rfl
    rw [happ, readElement, if_neg (by decide), if_neg (by decide), if_pos rfl, if_pos hstart, hdrop]
  | false => exact readElement_constant (w := infinity) (by decide) rfl hrest fuel

private theorem length_pieces_le (ps : List Piece) : ps.length ≤ (StringLiteral.text ps).length := by
  induction ps with
  | nil => exact Nat.le_refl _
  | cons p ps ih =>
    have hp : 1 ≤ p.text.length := by cases p <;> simp [Piece.text]
    simp only [StringLiteral.text, List.flatMap_cons, List.length_append, List.length_cons] at ih ⊢
    omega

private theorem readElement_string {ps : List Piece} (hps : StringLiteral.WellFormed ps) (fuel : Nat) :
    readElement (fuel + 1) ((Element.string ps).text table ++ rest) = some (.string ps, rest) := by
  have happ : (Element.string ps).text table ++ rest = '\'' :: (StringLiteral.text ps ++ '\'' :: rest) := by
    simp [Element.text]
  have hfuel : ps.length < (StringLiteral.text ps ++ '\'' :: rest).length + 1 := by
    have := length_pieces_le ps
    rw [List.length_append]
    omega
  rw [happ, readElement, if_pos rfl, StringLiteral.read_text hps hfuel]
  rfl

/-- No element begins with a closing mark. -/
private theorem text_head (htable : IsWord table) {e : Element} (he : e.WellFormed) :
    ∃ c t, e.text table = c :: t ∧ c ≠ ']' ∧ c ≠ ')' := by
  cases e with
  | null => exact ⟨'n', _, rfl, by decide, by decide⟩
  | truth b => cases b <;> exact ⟨_, _, rfl, by decide, by decide⟩
  | nan => exact ⟨'N', _, rfl, by decide, by decide⟩
  | infinity negative => cases negative <;> exact ⟨_, _, rfl, by decide, by decide⟩
  | number negative n =>
    obtain ⟨c, t, hct, hc⟩ := decimal_head he
    obtain ⟨-, -, -, hbracket, hparen, -⟩ := not_decimal_head hc
    cases negative with
    | true => exact ⟨'-', _, rfl, by decide, by decide⟩
    | false => exact ⟨c, t, by simp [Element.text, sign, hct], hbracket, hparen⟩
  | string ps => exact ⟨'\'', _, rfl, by decide, by decide⟩
  | list items => exact ⟨'[', _, rfl, by decide, by decide⟩
  | slot index =>
    cases table with
    | nil => exact htable.elim
    | cons c table =>
      obtain ⟨-, -, -, hbracket, hparen⟩ := not_isWordStart htable.1
      exact ⟨c, _, rfl, hbracket, hparen⟩

mutual
/-- Reading an element stops behind it. -/
theorem readElement_text (htable : IsWord table) (e : Element) (he : e.WellFormed) (rest : List Char)
    (hrest : Delimited rest) (fuel : Nat) (hfuel : (e.text table).length ≤ fuel) :
    readElement fuel (e.text table ++ rest) = some (e, rest) := by
  obtain ⟨c, t, hct, -⟩ := text_head htable he
  obtain ⟨fuel, rfl⟩ : ∃ k, fuel = k + 1 := Nat.exists_eq_succ_of_ne_zero (by rintro rfl; simp [hct] at hfuel)
  match e with
  | .null => exact readElement_constant (w := Expression.null) (by decide) rfl hrest fuel
  | .truth true => exact readElement_constant (w := Expression.truth true) (by decide) rfl hrest fuel
  | .truth false => exact readElement_constant (w := Expression.truth false) (by decide) rfl hrest fuel
  | .nan => exact readElement_constant (w := nan) (by decide) rfl hrest fuel
  | .infinity negative => exact readElement_infinity hrest negative fuel
  | .number negative n => exact readElement_number he hrest negative fuel
  | .string ps => exact readElement_string he fuel
  | .slot index =>
    have happ : (Element.slot index).text table ++ rest = table ++ ('[' :: index ++ [']'] ++ rest) := by
      simp [Element.text]
    rw [happ, readElement_word htable, ← happ]
    exact readWord_slot htable he
  | .list items =>
    have happ : (Element.list items).text table ++ rest =
        '[' :: (Expression.separated (Element.texts table items) ++ ']' :: rest) := by simp [Element.text]
    have hitems := readItems_texts htable items he (.inl rfl) rest fuel (by
      simp only [Element.text, List.length_cons, List.length_append] at hfuel
      omega)
    rw [happ, readElement, if_neg (by decide), if_pos rfl, hitems]
    rfl

/-- Reading the elements of a list stops behind its closing mark. -/
theorem readItems_texts (htable : IsWord table) (es : List Element) (hes : Element.AllWellFormed es) {close : Char}
    (hclose : close = ']' ∨ close = ')') (rest : List Char) (fuel : Nat)
    (hfuel : (Expression.separated (Element.texts table es)).length < fuel) :
    readItems fuel close (Expression.separated (Element.texts table es) ++ close :: rest) = some (es, rest) := by
  obtain ⟨fuel, rfl⟩ : ∃ k, fuel = k + 1 := Nat.exists_eq_succ_of_ne_zero (Nat.ne_of_gt (Nat.zero_lt_of_lt hfuel))
  match es with
  | [] => simp [Element.texts, Expression.separated, readItems]
  | [e] =>
    have hone : Expression.separated (Element.texts table [e]) = e.text table := rfl
    obtain ⟨c, t, hct, hbracket, hparen⟩ := text_head htable hes.1
    have hne : (e.text table ++ close :: rest).head? ≠ some close := by
      rcases hclose with rfl | rfl <;> simp [hct, hbracket, hparen]
    have hdelim : Delimited (close :: rest) := by
      intro d hd
      obtain rfl := Option.some.inj hd
      exact .inr hclose
    have hread := readElement_text htable e hes.1 _ hdelim fuel (by rw [hone] at hfuel; omega)
    have hcomma : close ≠ ',' := by rcases hclose with rfl | rfl <;> decide
    rw [hone, readItems, if_neg hne, hread]
    simp [hcomma]
  | e :: f :: more =>
    have hmore : Expression.separated (Element.texts table (e :: f :: more)) ++ close :: rest =
        e.text table ++ ',' :: (Expression.separated (Element.texts table (f :: more)) ++ close :: rest) := by
      simp [Element.texts, Expression.separated]
    have hlength : (Expression.separated (Element.texts table (e :: f :: more))).length =
        (e.text table).length + 1 + (Expression.separated (Element.texts table (f :: more))).length := by
      simp [Element.texts, Expression.separated]
      omega
    obtain ⟨c, t, hct, hbracket, hparen⟩ := text_head htable hes.1
    have hne : (e.text table ++ ',' :: (Expression.separated (Element.texts table (f :: more)) ++ close :: rest)).head?
        ≠ some close := by
      rcases hclose with rfl | rfl <;> simp [hct, hbracket, hparen]
    have hdelim : Delimited (',' :: (Expression.separated (Element.texts table (f :: more)) ++ close :: rest)) := by
      intro d hd
      obtain rfl := Option.some.inj hd
      exact .inl rfl
    have hread := readElement_text htable e hes.1 _ hdelim fuel (by omega)
    have hitems := readItems_texts htable (f :: more) hes.2 hclose rest fuel (by omega)
    rw [hmore, readItems, if_neg hne, hread]
    simp only [List.head?_cons, if_true, List.drop_one, List.tail_cons, hitems]
    rfl
end

end Elements

private theorem arguments_inj {table : List Char} (htable : IsWord table) {as bs : Option (List Element)}
    (has : ∀ es ∈ as, Element.AllWellFormed es) (hbs : ∀ es ∈ bs, Element.AllWellFormed es)
    (h : Call.argumentsText table as = Call.argumentsText table bs) : as = bs := by
  rcases as with _ | es <;> rcases bs with _ | fs
  · rfl
  · cases h
  · cases h
  · have hread (es : List Element) (hes : Element.AllWellFormed es) :
        readItems ((Expression.separated (Element.texts table es) ++ [')']).length) ')'
          (Expression.separated (Element.texts table es) ++ [')']) = some (es, []) :=
      readItems_texts htable es hes (.inr rfl) [] _ (by simp)
    have htexts : Expression.separated (Element.texts table es) ++ [')'] =
        Expression.separated (Element.texts table fs) ++ [')'] := List.tail_eq_of_cons_eq h
    have hes := hread es (has es rfl)
    rw [htexts, hread fs (hbs fs rfl)] at hes
    cases hes
    rfl

private theorem arguments_head (table : List Char) (as : Option (List Element)) :
    ∀ c ∈ (Call.argumentsText table as).head?, isWordPart c = false := by
  intro c hc
  rcases as with _ | es
  · cases hc
  · obtain rfl := Option.some.inj hc
    decide +kernel

/-- The grammar is unambiguous: no two of its trees have one text. -/
theorem Call.text_injective {table : List Char} (htable : IsWord table) {a b : Call} (ha : a.WellFormed)
    (hb : b.WellFormed) (h : a.text table = b.text table) : a = b := by
  simp only [Call.text, List.append_assoc, List.cons_append] at h
  have hrest := List.tail_eq_of_cons_eq (List.append_cancel_left h)
  have hbracket (t : List Char) : ∀ c ∈ (']' :: '.' :: t).head?, c.isDigit = false := by
    intro c hc
    obtain rfl := Option.some.inj hc
    rfl
  obtain ⟨hindex, hmember⟩ := append_inj_of_span ha.index.2 hb.index.2 (hbracket _) (hbracket _) hrest
  obtain ⟨hname, harguments⟩ := append_inj_of_span ha.name.part hb.name.part (arguments_head table _)
    (arguments_head table _) (List.tail_eq_of_cons_eq (List.tail_eq_of_cons_eq hmember))
  obtain ⟨index, name, arguments⟩ := a
  obtain ⟨index', name', arguments'⟩ := b
  obtain rfl : index = index' := hindex
  obtain rfl : name = name' := hname
  obtain rfl : arguments = arguments' := arguments_inj htable ha.arguments hb.arguments harguments
  rfl

end ScriptBridge.Grammar
