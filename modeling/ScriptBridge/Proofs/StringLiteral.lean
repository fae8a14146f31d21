import ScriptBridge.Expression
import ScriptBridge.Script.Token

/-! String literals between single quotes, as the language has them since 2019, taken apart into their
pieces. A literal has one sequence of pieces and one end, whatever stands behind it, and an escaped text is
a literal that stands for the text. -/
namespace ScriptBridge.Text

private theorem toNat_valid (c : Char) : c.toNat < 0xD800 ∨ 0xDFFF < c.toNat ∧ c.toNat < 0x110000 := by
  have := c.valid
  simp only [UInt32.isValidChar, Nat.isValidChar] at this
  exact this

theorem ofUnits?_unitsOf (c : Char) (us : List Nat) :
    ofUnits? (unitsOf c ++ us) = (ofUnits? us).map (c :: ·) := by
  have hvalid := toNat_valid c
  unfold unitsOf
  split
  · have hleading : isLeading c.toNat = false := by
      simp only [isLeading, Bool.and_eq_false_iff, decide_eq_false_iff_not]
      omega
    have htrailing : isTrailing c.toNat = false := by
      simp only [isTrailing, Bool.and_eq_false_iff, decide_eq_false_iff_not]
      omega
    cases us <;> simp [ofUnits?, hleading, htrailing]
  · have hleading : isLeading (0xD800 + (c.toNat - 0x10000) / 0x400) = true := by
      simp only [isLeading, Bool.and_eq_true, decide_eq_true_eq]
      omega
    have htrailing : isTrailing (0xDC00 + (c.toNat - 0x10000) % 0x400) = true := by
      simp only [isTrailing, Bool.and_eq_true, decide_eq_true_eq]
      omega
    have hpair : pairValue (0xD800 + (c.toNat - 0x10000) / 0x400) (0xDC00 + (c.toNat - 0x10000) % 0x400) =
        c.toNat := by
      unfold pairValue
      omega
    simp [ofUnits?, hleading, htrailing, hpair]

/-- The units of a text are those of no other text. -/
theorem ofUnits?_units (cs : List Char) : ofUnits? (units cs) = some cs := by
  induction cs with
  | nil => rfl
  | cons c rest ih =>
    rw [units, List.flatMap_cons, ofUnits?_unitsOf]
    exact congrArg (Option.map (c :: ·)) ih

private theorem replaceChars_flatMap (es : List (Char × Char)) (text : List Char) :
    es.foldl (fun t e => replaceChar e.1 ['\\', e.2] t) text =
      text.flatMap fun c => es.foldl (fun t e => replaceChar e.1 ['\\', e.2] t) [c] := by
  induction es generalizing text with
  | nil => simp
  | cons e es ih =>
    simp only [List.foldl_cons]
    rw [ih, replaceChar, List.flatMap_assoc]
    congr 1
    funext c
    rw [ih (replaceChar e.1 ['\\', e.2] [c])]
    simp [replaceChar]

/-- The replacements act on each character by itself. -/
theorem escape_eq_flatMap (text : List Char) : escape text = text.flatMap fun c => escape [c] :=
  replaceChars_flatMap escapes text

end ScriptBridge.Text

namespace ScriptBridge.StringLiteral

open Script (isLineEnd)

inductive Piece where
  | plain (c : Char)
  /-- a character behind a backslash that stands for itself or for a control character -/
  | escaped (c : Char)
  | zero
  | byte (a b : Char)
  | unit (a b c d : Char)
  | point (digits : List Char)
  /-- a line end behind a backslash, which stands for nothing -/
  | lineEnd (cs : List Char)
  deriving DecidableEq

def isHex (c : Char) : Bool := (Json.hexValue? c).isSome

def hexNumeral (ds : List Char) : Nat := ds.foldl (fun n c => 16 * n + (Json.hexValue? c).getD 0) 0

namespace Piece

def text : Piece → List Char
  | plain c => [c]
  | escaped c => ['\\', c]
  | zero => ['\\', '0']
  | byte a b => ['\\', 'x', a, b]
  | unit a b c d => ['\\', 'u', a, b, c, d]
  | point digits => '\\' :: 'u' :: '\x7b' :: digits ++ ['\x7d']
  | lineEnd cs => '\\' :: cs

def WellFormed : Piece → Prop
  | plain c => c ≠ '\'' ∧ c ≠ '\\' ∧ c ≠ '\n' ∧ c ≠ '\r'
  | escaped c => c.isDigit = false ∧ c ≠ 'x' ∧ c ≠ 'u' ∧ isLineEnd c = false
  | zero => True
  | byte a b => isHex a = true ∧ isHex b = true
  | unit a b c d => isHex a = true ∧ isHex b = true ∧ isHex c = true ∧ isHex d = true
  | point digits => digits ≠ [] ∧ (∀ c ∈ digits, isHex c = true) ∧ hexNumeral digits < 0x110000
  | lineEnd cs => cs = ['\r', '\n'] ∨ ∃ c, cs = [c] ∧ isLineEnd c = true

/-- The units that a piece stands for. -/
def units : Piece → List Nat
  | plain c => Text.unitsOf c
  | escaped c => Text.unitsOf ((Script.Token.shortEscape? c).getD c)
  | zero => [0]
  | byte a b => [hexNumeral [a, b]]
  | unit a b c d => [hexNumeral [a, b, c, d]]
  | point digits =>
    if hexNumeral digits < 0x10000 then [hexNumeral digits] else Text.unitsOf (Char.ofNat (hexNumeral digits))
  | lineEnd _ => []

/-- What may stand behind a piece: no digit behind a zero. -/
def Followed : Piece → List Piece → Prop
  | zero, plain c :: _ => c.isDigit = false
  | _, _ => True

end Piece

/-- The text between the quotes. -/
def text (ps : List Piece) : List Char := ps.flatMap Piece.text

def WellFormed : List Piece → Prop
  | [] => True
  | p :: rest => p.WellFormed ∧ p.Followed rest ∧ WellFormed rest

def units (ps : List Piece) : List Nat := ps.flatMap Piece.units

/-- The piece at the front of a text. -/
def readPiece : List Char → Option (Piece × List Char)
  | [] => none
  | '\\' :: '0' :: rest => some (.zero, rest)
  | '\\' :: 'x' :: a :: b :: rest => some (.byte a b, rest)
  | '\\' :: 'u' :: '\x7b' :: rest =>
    some (.point (rest.takeWhile isHex), (rest.dropWhile isHex).drop 1)
  | '\\' :: 'u' :: a :: b :: c :: d :: rest => some (.unit a b c d, rest)
  | '\\' :: '\r' :: '\n' :: rest => some (.lineEnd ['\r', '\n'], rest)
  | '\\' :: c :: rest => some (if isLineEnd c then .lineEnd [c] else .escaped c, rest)
  | c :: rest => some (.plain c, rest)

/-- The pieces up to the closing quote, and the text behind it. -/
def read : (fuel : Nat) → List Char → Option (List Piece × List Char)
  | 0, _ => none
  | _ + 1, '\'' :: rest => some ([], rest)
  | fuel + 1, text => do
    let (p, rest) ← readPiece text
    let (ps, rest) ← read fuel rest
    some (p :: ps, rest)

private theorem isHex_closing : isHex '\x7d' = false := by decide

private theorem readPiece_backslash {c : Char} (hzero : c ≠ '0') (hx : c ≠ 'x') (hu : c ≠ 'u') {rest : List Char}
    (hcr : c = '\r' → rest.head? ≠ some '\n') :
    readPiece ('\\' :: c :: rest) = some (if isLineEnd c then .lineEnd [c] else .escaped c, rest) := by
  unfold readPiece
  split <;> grind

theorem readPiece_text {p : Piece} (hp : p.WellFormed) {rest : List Char} (hrest : rest.head? ≠ some '\n') :
    readPiece (p.text ++ rest) = some (p, rest) := by
  cases p with
  | plain c =>
    have hc : c ≠ '\\' := hp.2.1
    simp only [Piece.text, List.singleton_append]
    unfold readPiece
    split <;> simp_all
  | escaped c =>
    obtain ⟨hdigit, hx, hu, hend⟩ := hp
    have hzero : c ≠ '0' := by
      rintro rfl
      cases hdigit
    exact (readPiece_backslash hzero hx hu fun _ => hrest).trans (by rw [hend]; rfl)
  | zero => rfl
  | byte a b => rfl
  | unit a b c d =>
    have ha : a ≠ '\x7b' := by
      rintro rfl
      cases hp.1
    simp only [Piece.text, List.cons_append, List.nil_append]
    unfold readPiece
    split <;> grind
  | point digits =>
    have hsplit : (digits ++ '\x7d' :: rest).takeWhile isHex = digits ∧
        (digits ++ '\x7d' :: rest).dropWhile isHex = '\x7d' :: rest := by
      rw [List.takeWhile_append_of_pos hp.2.1, List.dropWhile_append_of_pos hp.2.1]
      simp [isHex_closing]
    simp only [Piece.text, List.cons_append, List.append_assoc, List.nil_append, readPiece, hsplit, List.drop_one,
      List.tail_cons]
  | lineEnd cs =>
    rcases hp with rfl | ⟨c, rfl, hc⟩
    · rfl
    · have hne (d : Char) (hd : isLineEnd d = false) : c ≠ d := by
        rintro rfl
        simp [hd] at hc
      exact (readPiece_backslash (hne _ (by decide)) (hne _ (by decide)) (hne _ (by decide)) fun _ => hrest).trans
        (by rw [hc]; rfl)

private theorem text_head? (ps : List Piece) (h : WellFormed ps) (rest : List Char) :
    (text ps ++ '\'' :: rest).head? ≠ some '\n' := by
  cases ps with
  | nil => simp [text]
  | cons p ps =>
    have hp := h.1
    cases p <;> simp [text, Piece.text, Piece.WellFormed] at hp ⊢
    exact hp.2.2.1

private theorem text_head?_quote {p : Piece} (h : p.WellFormed) (rest : List Char) :
    ∃ c t, p.text ++ rest = c :: t ∧ c ≠ '\'' := by
  cases p <;> simp [Piece.text, Piece.WellFormed] at h ⊢
  exact h.1

/-- Reading a literal gives back its pieces, and stops at its quote. -/
theorem read_text {ps : List Piece} (h : WellFormed ps) {fuel : Nat} (hfuel : ps.length < fuel) (rest : List Char) :
    read fuel (text ps ++ '\'' :: rest) = some (ps, rest) := by
  induction ps generalizing fuel with
  | nil =>
    obtain ⟨fuel, rfl⟩ := Nat.exists_eq_add_of_lt hfuel
    rfl
  | cons p ps ih =>
    obtain ⟨fuel, rfl⟩ := Nat.exists_eq_succ_of_ne_zero (Nat.ne_of_gt (Nat.zero_lt_of_lt hfuel))
    have hpiece := readPiece_text h.1 (text_head? ps h.2.2 rest)
    have hrest := ih h.2.2 (Nat.lt_of_succ_lt_succ hfuel)
    have happ : text (p :: ps) ++ '\'' :: rest = p.text ++ (text ps ++ '\'' :: rest) := by
      simp [text]
    obtain ⟨c, t, hct, hc⟩ := text_head?_quote h.1 (text ps ++ '\'' :: rest)
    rw [happ]
    rw [hct] at hpiece ⊢
    unfold read
    split
    · contradiction
    · simp_all
    · simp_all

/-- The piece as which a character is written. -/
def ofChar (c : Char) : Piece :=
  match Text.escapes.lookup c with
  | some d => .escaped d
  | none => .plain c

theorem ofChar_cases (c : Char) :
    (∃ d, (c, d) ∈ Text.escapes ∧ ofChar c = .escaped d) ∨
      ofChar c = .plain c ∧ ∀ e ∈ Text.escapes, c ≠ e.1 := by
  unfold ofChar
  rcases h : Text.escapes.lookup c with _ | d
  · exact .inr ⟨rfl, fun e he hce => by simpa [hce] using List.lookup_eq_none_iff.1 h e he⟩
  · obtain ⟨l₁, l₂, hl, -⟩ := List.lookup_eq_some_iff.1 h
    exact .inl ⟨d, by simp [hl], rfl⟩

private theorem escapes_spec : ∀ e ∈ Text.escapes, Text.escape [e.1] = ['\\', e.2] ∧
    e.2.isDigit = false ∧ e.2 ≠ 'x' ∧ e.2 ≠ 'u' ∧ isLineEnd e.2 = false ∧
      (Script.Token.shortEscape? e.2).getD e.2 = e.1 := by decide

theorem ofChar_wellFormed (c : Char) : (ofChar c).WellFormed := by
  rcases ofChar_cases c with ⟨d, hd, h⟩ | ⟨h, hne⟩ <;> rw [h]
  · obtain ⟨-, hdigit, hx, hu, hend, -⟩ := escapes_spec _ hd
    exact ⟨hdigit, hx, hu, hend⟩
  · exact ⟨hne ('\'', '\'') (by decide), hne ('\\', '\\') (by decide), hne ('\n', 'n') (by decide),
      hne ('\r', 'r') (by decide)⟩

theorem ofChar_text (c : Char) : (ofChar c).text = Text.escape [c] := by
  rcases ofChar_cases c with ⟨d, hd, h⟩ | ⟨h, hne⟩ <;> rw [h]
  · exact (escapes_spec _ hd).1.symm
  · have hkeep : ∀ es : List (Char × Char), (∀ e ∈ es, c ≠ e.1) →
        es.foldl (fun t e => Text.replaceChar e.1 ['\\', e.2] t) [c] = [c] := by
      intro es
      induction es with
      | nil => exact fun _ => rfl
      | cons e es ih =>
        intro hes
        have hstep : Text.replaceChar e.1 ['\\', e.2] [c] = [c] := by
          simp [Text.replaceChar, hes e (by simp)]
        rw [List.foldl_cons, hstep]
        exact ih fun e' he' => hes e' (by simp [he'])
    exact (hkeep Text.escapes hne).symm

theorem ofChar_units (c : Char) : (ofChar c).units = Text.unitsOf c := by
  rcases ofChar_cases c with ⟨d, hd, h⟩ | ⟨h, hne⟩ <;> rw [h]
  · obtain ⟨-, -, -, -, -, hshort⟩ := escapes_spec _ hd
    rw [Piece.units, hshort]
  · rfl

private theorem wellFormed_of_forall {ps : List Piece} (h : ∀ p ∈ ps, p.WellFormed ∧ p ≠ .zero) : WellFormed ps := by
  induction ps with
  | nil => trivial
  | cons p ps ih =>
    refine ⟨(h p (by simp)).1, ?_, ih fun q hq => h q (by simp [hq])⟩
    have hne := (h p (by simp)).2
    cases p <;> trivial

/-- An escaped text is a literal. -/
theorem wellFormed_map_ofChar (s : List Char) : WellFormed (s.map ofChar) := by
  refine wellFormed_of_forall fun p hp => ?_
  obtain ⟨c, -, rfl⟩ := List.mem_map.1 hp
  refine ⟨ofChar_wellFormed c, fun h => ?_⟩
  rcases ofChar_cases c with ⟨d, -, hd⟩ | ⟨hc, -⟩
  · cases hd.symm.trans h
  · cases hc.symm.trans h

theorem text_map_ofChar (s : List Char) : text (s.map ofChar) = Text.escape s := by
  rw [Text.escape_eq_flatMap, text, List.flatMap_map]
  congr 1
  funext c
  exact ofChar_text c

/-- An escaped text stands for the text. -/
theorem units_map_ofChar (s : List Char) : units (s.map ofChar) = Text.units s := by
  rw [units, Text.units, List.flatMap_map]
  congr 1
  funext c
  exact ofChar_units c

end ScriptBridge.StringLiteral
