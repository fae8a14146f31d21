import Mathlib.Tactic.SplitIfs
import ScriptBridge.Toml.Text

/-! TOML strings. Whatever form is chosen for a text, the string is read up to its closing quotes and stands for the
text. -/
namespace ScriptBridge.Toml

/-! Escapes. -/

/-- What stands behind the backslash of an escape. It does not begin like the end of a line. -/
structure Escapes (e : List Char) (c : Char) : Prop where
  read : ∀ rest, escape? (e ++ rest) = some (c, e.length)
  stays : ∀ rest, breaksLine (e ++ rest) = false

private theorem breaksLine_cons {d : Char} (hblank : isBlank d = false) (hline : d ≠ '\n') (hreturn : d ≠ '\r')
    (rest : List Char) : breaksLine (d :: rest) = false := by
  rw [breaksLine, List.dropWhile_cons, hblank, if_neg Bool.false_ne_true, afterLineEnd?]
  · rfl
  · rintro _ ⟨⟩
    contradiction
  · rintro _ ⟨⟩
    contradiction

private theorem escapes_short {c d : Char} (hd : d ∈ ['b', 't', 'f', 'r', '\\', 'n', '"'])
    (hread : shortEscape? d = some c) : Escapes [d] c := by
  have hall : ['b', 't', 'f', 'r', '\\', 'n', '"'].all (fun d => decide (escapeDigits d = 0 ∧ isBlank d = false ∧
      d ≠ '\n' ∧ d ≠ '\r')) = true := by decide
  obtain ⟨hdigits, hblank, hline, hreturn⟩ := of_decide_eq_true (List.all_eq_true.1 hall d hd)
  refine ⟨fun rest => ?_, breaksLine_cons hblank hline hreturn⟩
  rw [List.singleton_append, escape?, hdigits, hread]
  rfl

private theorem hexNumber?_hexQuad : ∀ n : Fin 0x80, (hexQuad n).length = 4 ∧ hexNumber? (hexQuad n) = some n.val := by
  decide

theorem lt_of_isControl {c : Char} (h : isControl c = true) : c.toNat < 0x80 := by
  simp only [isControl, Bool.or_eq_true, Bool.and_eq_true, decide_eq_true_eq, beq_iff_eq] at h
  omega

private theorem escapes_control {c : Char} (h : isControl c = true) : Escapes ('u' :: hexQuad c.toNat) c := by
  have hlt := lt_of_isControl h
  obtain ⟨hlength, hnumber⟩ := hexNumber?_hexQuad ⟨c.toNat, hlt⟩
  have hchar : charOf? c.toNat = some c := by
    rw [charOf?, if_pos (.inl (by omega)), Char.ofNat_toNat]
  refine ⟨fun rest => ?_, fun rest => breaksLine_cons (by decide) (by decide) (by decide) _⟩
  have htake : (hexQuad c.toNat ++ rest).take 4 = hexQuad c.toNat := List.take_left' hlength
  rw [List.cons_append, escape?]
  simp only [escapeDigits, htake, hlength, Nat.lt_irrefl, if_false, hnumber, Option.bind_some, hchar, Option.map_some,
    List.length_cons]

/-- A character stands for itself or is escaped. A quote stands for itself between triples of quotes only, and so does
a line end. -/
theorem escapedChar_cases (multiline : Bool) (run : Nat) (c : Char) :
    (escapedChar multiline run c = [c] ∧ c ≠ '\\' ∧ (c = '"' → multiline = true ∧ run < 2) ∧
      (isControl c = true → c = '\n' ∧ multiline = true)) ∨
    ∃ e, escapedChar multiline run c = '\\' :: e ∧ Escapes e c := by
  unfold escapedChar
  split_ifs with hback htab hfeed hreturn hslash hline hmulti hquote hraw hcontrol
  · exact .inr ⟨_, rfl, escapes_short (by simp) (by rw [hback]; rfl)⟩
  · exact .inr ⟨_, rfl, escapes_short (by simp) (by rw [htab]; rfl)⟩
  · exact .inr ⟨_, rfl, escapes_short (by simp) (by rw [hfeed]; rfl)⟩
  · exact .inr ⟨_, rfl, escapes_short (by simp) (by rw [hreturn]; rfl)⟩
  · exact .inr ⟨_, rfl, escapes_short (by simp) (by rw [hslash]; rfl)⟩
  · exact .inl ⟨by rw [hline], hslash, fun h => by simp [hline] at h, fun _ => ⟨hline, hmulti⟩⟩
  · exact .inr ⟨_, rfl, escapes_short (by simp) (by rw [hline]; rfl)⟩
  · have hrun : multiline = true ∧ run < 2 := by simpa using hraw
    exact .inl ⟨by rw [hquote], hslash, fun _ => hrun, fun h => by simp [hquote, isControl] at h⟩
  · exact .inr ⟨_, rfl, escapes_short (by simp) (by rw [hquote]; rfl)⟩
  · exact .inr ⟨_, rfl, escapes_control hcontrol⟩
  · exact .inl ⟨rfl, hslash, fun h => absurd h hquote, fun h => absurd h hcontrol⟩

/-- Where a quote cannot stand for itself, the text does not begin with one. -/
private theorem escaped_head {multiline : Bool} {run : Nat} (h : ¬(multiline = true ∧ run < 2)) (text : List Char) :
    ∀ c ∈ (escaped multiline run text).head?, c ≠ '"' := by
  cases text with
  | nil => nofun
  | cons d text =>
    rw [escaped]
    rcases escapedChar_cases multiline run d with ⟨heq, -, hquote, -⟩ | ⟨e, heq, -⟩ <;> rw [heq] <;> rintro c ⟨⟩
    · exact fun hc => h (hquote hc)
    · decide

/-! Strings of one line. -/

private theorem basicRest_drop (e rest : List Char) : basicRest e.length (e ++ rest) = basicRest 0 rest := by
  induction e with
  | nil => rfl
  | cons c e ih => exact ih

private theorem basicRest_escapedChar (run : Nat) (c : Char) (rest : List Char) :
    basicRest 0 (escapedChar false run c ++ rest) = (basicRest 0 rest).cons c := by
  rcases escapedChar_cases false run c with ⟨heq, hslash, hquote, hcontrol⟩ | ⟨e, heq, he⟩
  · have hraw : c ≠ '"' := fun h => Bool.false_ne_true (hquote h).1
    have hplain : isControl c = false := by
      rw [← Bool.not_eq_true]
      exact fun h => Bool.false_ne_true (hcontrol h).2
    rw [heq, List.singleton_append, basicRest, hplain, if_neg Bool.false_ne_true]
    · exact hraw
    · exact hslash
  · rw [heq, List.cons_append, basicRest, he.read rest]
    exact congrArg (Read.cons c) (basicRest_drop e rest)

private theorem basicRest_escaped (run : Nat) (text rest : List Char) :
    basicRest 0 (escaped false run text ++ '"' :: rest) = some (text, rest) := by
  induction text generalizing run with
  | nil => rfl
  | cons c text ih =>
    rw [escaped, List.append_assoc, basicRest_escapedChar, ih]
    rfl

private theorem literalRest_text {text : List Char} (htext : ∀ c ∈ text, c ≠ '\'' ∧ isControl c = false)
    (rest : List Char) : literalRest (text ++ '\'' :: rest) = some (text, rest) := by
  induction text with
  | nil => rfl
  | cons c text ih =>
    obtain ⟨hquote, hcontrol⟩ := htext c List.mem_cons_self
    rw [List.cons_append, literalRest, hcontrol, if_neg Bool.false_ne_true,
      ih fun d hd => htext d (List.mem_cons_of_mem c hd)]
    · rfl
    · exact hquote

/-! Texts of several lines. Their quotes may stand in pairs, also in front of the closing ones. -/

variable {quote : Char}

/-- No quote may stand behind a string: it would be taken for one of those that close it. -/
def Unquoted (rest : List Char) : Prop := ∀ c ∈ rest.head?, c ≠ '"' ∧ c ≠ '\''

private theorem closing_of_ne {rest : List Char} (hrest : ∀ c ∈ rest.head?, c ≠ quote) :
    closing quote rest = ([], rest) ∧ closing quote (quote :: rest) = ([quote], rest) ∧
      closing quote (quote :: quote :: rest) = ([quote, quote], rest) := by
  cases rest with
  | nil => simp [closing]
  | cons c rest =>
    have hc := hrest c rfl
    cases rest <;> simp [closing, hc]

/-- Three quotes close a text where they stand behind less than three quotes of its own. -/
private theorem take_two_append {w : List Char} (htwo : w.take 2 ≠ [quote, quote]) (hnil : w ≠ [])
    (hone : w ≠ [quote]) (rest : List Char) : (w ++ quote :: quote :: quote :: rest).take 2 ≠ [quote, quote] := by
  match w with
  | [] => exact absurd rfl hnil
  | [c] => simpa using fun h : c = quote => hone (by rw [h])
  | c :: d :: w => simpa using htwo

private theorem multiBasicRest_drop (e rest : List Char) :
    multiBasicRest false e.length (e ++ rest) = multiBasicRest false 0 rest := by
  induction e with
  | nil => rfl
  | cons c e ih => exact ih

private theorem multiBasicRest_close (rest : List Char) :
    multiBasicRest false 0 ('"' :: '"' :: '"' :: rest) = some (closing '"' rest) := rfl

private theorem multiBasicRest_plain {c : Char} {rest : List Char} (hslash : c ≠ '\\')
    (hquote : c = '"' → rest.take 2 ≠ ['"', '"']) (hcontrol : isControl c = true → c = '\n') :
    multiBasicRest false 0 (c :: rest) = (multiBasicRest false 0 rest).cons c := by
  have hclose : (c == '"' && rest.take 2 == ['"', '"']) = false := by simpa using hquote
  rw [multiBasicRest, hclose]
  by_cases hline : c = '\n'
  · simp [hline]
  · have hplain : isControl c = false := by
      rw [← Bool.not_eq_true]
      exact fun h => hline (hcontrol h)
    have hreturn : c ≠ '\r' := by
      rintro rfl
      cases hplain
    simp [hslash, hline, hreturn, hplain]

private theorem multiBasicRest_escape {c : Char} {e : List Char} (he : Escapes e c) (rest : List Char) :
    multiBasicRest false 0 ('\\' :: (e ++ rest)) = (multiBasicRest false 0 rest).cons c := by
  rw [multiBasicRest, he.stays rest, he.read rest]
  exact congrArg (Read.cons c) (multiBasicRest_drop e rest)

private theorem escaped_take_two {run : Nat} (hrun : 0 < run) (text : List Char) :
    (escaped true run text).take 2 ≠ ['"', '"'] := by
  cases text with
  | nil => nofun
  | cons c text =>
    rw [escaped]
    rcases escapedChar_cases true run c with ⟨heq, -, hquote, -⟩ | ⟨e, heq, -⟩ <;> rw [heq]
    · intro htake
      obtain ⟨hc, hmore⟩ := List.cons.inj htake
      have hone : run = 1 := by
        have := (hquote hc).2
        omega
      rw [hone, if_pos ⟨hc, by decide⟩] at hmore
      have hhead : (escaped true 2 text).head? = some '"' := by
        cases hescaped : escaped true 2 text <;> rw [hescaped] at hmore <;> cases hmore
        rfl
      exact escaped_head (by omega) text '"' hhead rfl
    · simp

private theorem escaped_eq_nil {run : Nat} {text : List Char} (h : escaped true run text = []) : text = [] := by
  cases text with
  | nil => rfl
  | cons c text =>
    rw [escaped] at h
    rcases escapedChar_cases true run c with ⟨heq, -⟩ | ⟨e, heq, -⟩ <;> rw [heq] at h <;> cases h

private theorem escaped_eq_quote {run : Nat} {text : List Char} (h : escaped true run text = ['"']) : text = ['"'] := by
  cases text with
  | nil => cases h
  | cons c text =>
    rw [escaped] at h
    rcases escapedChar_cases true run c with ⟨heq, -⟩ | ⟨e, heq, -⟩ <;> rw [heq] at h
    · obtain ⟨rfl, hmore⟩ := List.cons.inj h
      rw [escaped_eq_nil hmore]
    · cases h

private theorem multiBasicRest_escaped (run : Nat) (text : List Char) {rest : List Char} (hrest : Unquoted rest) :
    multiBasicRest false 0 (escaped true run text ++ '"' :: '"' :: '"' :: rest) = some (text, rest) := by
  have hclosing := closing_of_ne fun c hc => (hrest c hc).1
  induction text generalizing run with
  | nil => rw [escaped, List.nil_append, multiBasicRest_close, hclosing.1]
  | cons c text ih =>
    rw [escaped, List.append_assoc]
    rcases escapedChar_cases true run c with ⟨heq, hslash, hquote, hcontrol⟩ | ⟨e, heq, he⟩
    · rw [heq, List.singleton_append]
      by_cases hc : c = '"'
      · subst hc
        have hraw : '"' = '"' ∧ run < 2 := ⟨rfl, (hquote rfl).2⟩
        rw [if_pos hraw]
        -- A quote that is not escaped has at most one more behind it, unless these are the closing ones.
        by_cases hnil : escaped true (run + 1) text = []
        · rw [hnil, escaped_eq_nil hnil, List.nil_append, multiBasicRest_close, hclosing.2.1]
        · by_cases hone : escaped true (run + 1) text = ['"']
          · rw [hone, escaped_eq_quote hone, List.singleton_append, multiBasicRest_close, hclosing.2.2]
          · have htwo := take_two_append (escaped_take_two run.succ_pos text) hnil hone rest
            rw [multiBasicRest_plain hslash (fun _ => htwo) fun h => (hcontrol h).1, ih]
            rfl
      · rw [multiBasicRest_plain hslash (fun h => absurd h hc) fun h => (hcontrol h).1, ih]
        rfl
    · rw [heq, List.cons_append, multiBasicRest_escape he, ih]
      rfl

/-- No three quotes stand in a row, when `run` of them stand in front. -/
def ShortRuns (quote : Char) : (run : Nat) → List Char → Prop
  | _, [] => True
  | run, c :: rest => if c = quote then run < 2 ∧ ShortRuns quote (run + 1) rest else ShortRuns quote 0 rest

/-- The longest run so far, and the run at the end. -/
private def counted (quote : Char) (r : Nat × Nat) (c : Char) : Nat × Nat :=
  if c = quote then (max r.1 (r.2 + 1), r.2 + 1) else (r.1, 0)

private theorem counted_le (r : Nat × Nat) (c : Char) : r.1 ≤ (counted quote r c).1 := by
  rw [counted]
  split
  · exact Nat.le_max_left _ _
  · exact Nat.le_refl _

private theorem foldl_counted_le (text : List Char) (r : Nat × Nat) : r.1 ≤ (text.foldl (counted quote) r).1 := by
  induction text generalizing r with
  | nil => exact Nat.le_refl _
  | cons c text ih => exact Nat.le_trans (counted_le r c) (ih _)

private theorem shortRuns_of_counted (text : List Char) (r : Nat × Nat) (h : (text.foldl (counted quote) r).1 < 3) :
    ShortRuns quote r.2 text := by
  induction text generalizing r with
  | nil => trivial
  | cons c text ih =>
    have hrest := ih _ h
    have hlt := Nat.lt_of_le_of_lt (foldl_counted_le text (counted quote r c)) h
    rw [counted] at hrest hlt
    rw [ShortRuns]
    split at hrest
    · rename_i hc
      rw [if_pos hc] at hlt ⊢
      exact ⟨by have := Nat.le_max_right r.1 (r.2 + 1); omega, hrest⟩
    · rename_i hc
      rwa [if_neg hc]

theorem shortRuns_of_longestRun {text : List Char} (h : longestRun quote text < 3) : ShortRuns quote 0 text :=
  shortRuns_of_counted text (0, 0) h

private theorem ShortRuns.take_two {run : Nat} (hrun : 0 < run) {text : List Char} (h : ShortRuns quote run text) :
    text.take 2 ≠ [quote, quote] := by
  match text with
  | [] => nofun
  | [c] => simp
  | c :: d :: text =>
    rintro htake
    obtain ⟨rfl, hd⟩ := List.cons.inj htake
    obtain ⟨rfl, -⟩ := List.cons.inj hd
    simp only [ShortRuns, if_true] at h
    omega

private theorem multiLiteralRest_close (rest : List Char) :
    multiLiteralRest ('\'' :: '\'' :: '\'' :: rest) = some (closing '\'' rest) := rfl

private theorem multiLiteralRest_plain {c : Char} {rest : List Char} (hquote : c = '\'' → rest.take 2 ≠ ['\'', '\''])
    (hcontrol : isControl c = true → c = '\n') : multiLiteralRest (c :: rest) = (multiLiteralRest rest).cons c := by
  have hclose : (c == '\'' && rest.take 2 == ['\'', '\'']) = false := by simpa using hquote
  rw [multiLiteralRest, hclose]
  by_cases hline : c = '\n'
  · simp [hline]
  · have hplain : isControl c = false := by
      rw [← Bool.not_eq_true]
      exact fun h => hline (hcontrol h)
    have hreturn : c ≠ '\r' := by
      rintro rfl
      cases hplain
    simp [hline, hreturn, hplain]

private theorem multiLiteralRest_text {run : Nat} {text : List Char} (hruns : ShortRuns '\'' run text)
    (htext : ∀ c ∈ text, isControl c = true → c = '\n') {rest : List Char} (hrest : Unquoted rest) :
    multiLiteralRest (text ++ '\'' :: '\'' :: '\'' :: rest) = some (text, rest) := by
  have hclosing := closing_of_ne fun c hc => (hrest c hc).2
  induction text generalizing run with
  | nil => rw [List.nil_append, multiLiteralRest_close, hclosing.1]
  | cons c text ih =>
    have hmore : ∀ d ∈ text, isControl d = true → d = '\n' := fun d hd => htext d (List.mem_cons_of_mem c hd)
    rw [ShortRuns] at hruns
    rw [List.cons_append]
    by_cases hc : c = '\''
    · rw [if_pos hc] at hruns
      subst hc
      by_cases hnil : text = []
      · rw [hnil, List.nil_append, multiLiteralRest_close, hclosing.2.1]
      · by_cases hone : text = ['\'']
        · rw [hone, List.singleton_append, multiLiteralRest_close, hclosing.2.2]
        · have htwo := take_two_append (hruns.2.take_two run.succ_pos) hnil hone rest
          rw [multiLiteralRest_plain (fun _ => htwo) (htext _ List.mem_cons_self), ih hruns.2 hmore]
          rfl
    · rw [if_neg hc] at hruns
      rw [multiLiteralRest_plain (fun h => absurd h hc) (htext _ List.mem_cons_self), ih hruns hmore]
      rfl

/-! The choice of a form. -/

private theorem take_two_of_head {w rest : List Char} (hw : ∀ c ∈ w.head?, c ≠ quote)
    (hrest : ∀ c ∈ rest.head?, c ≠ quote) : (w ++ quote :: rest).take 2 ≠ [quote, quote] := by
  cases w with
  | nil =>
    cases rest with
    | nil => simp
    | cons c rest => simpa using hrest c rfl
  | cons c w =>
    rintro htake
    exact hw c rfl (List.cons.inj htake).1

private theorem string?_of_take_two {w : List Char} (h : w.take 2 ≠ [quote, quote]) :
    string? (quote :: w) = lineString? (quote :: w) := by
  unfold string?
  split
  · rename_i heq
    obtain ⟨rfl, rfl⟩ := List.cons.inj heq
    exact absurd rfl h
  · rename_i heq
    obtain ⟨rfl, rfl⟩ := List.cons.inj heq
    exact absurd rfl h
  · rfl

private theorem afterOpening_opening {text w : List Char}
    (hw : text.contains '\n' = false → ∀ c ∈ w.head?, c ≠ '\n' ∧ c ≠ '\r') :
    afterOpening ((if text.contains '\n' then ['\n'] else []) ++ w) = w := by
  split
  · rfl
  · rename_i hline
    have hhead := hw (by simpa using hline)
    rw [List.nil_append, afterOpening, afterLineEnd?.eq_def]
    split
    · exact absurd rfl (hhead _ rfl).1
    · exact absurd rfl (hhead _ rfl).2
    · rfl

variable {text rest : List Char}

private theorem string?_basic (text : List Char) (hrest : Unquoted rest) :
    string? ('"' :: (escaped false 0 text ++ '"' :: rest)) = some (text, rest) := by
  have hhead : ∀ c ∈ (escaped false 0 text).head?, c ≠ '"' := escaped_head (fun h => Bool.false_ne_true h.1) text
  have htwo := take_two_of_head hhead fun c hc => (hrest c hc).1
  rw [string?_of_take_two htwo]
  exact basicRest_escaped 0 text rest

private theorem string?_literal (htext : ∀ c ∈ text, c ≠ '\'' ∧ isControl c = false) (hrest : Unquoted rest) :
    string? ('\'' :: (text ++ '\'' :: rest)) = some (text, rest) := by
  have hhead : ∀ c ∈ text.head?, c ≠ '\'' := fun c hc => (htext c (List.mem_of_mem_head? hc)).1
  have htwo := take_two_of_head hhead fun c hc => (hrest c hc).2
  rw [string?_of_take_two htwo]
  exact literalRest_text htext rest

private theorem string?_multiBasic (text : List Char) (hrest : Unquoted rest) :
    string? (tripled '"' (if text.contains '\n' then ['\n'] else []) (escaped true 0 text) ++ rest) =
      some (text, rest) := by
  have hopening : afterOpening ((if text.contains '\n' then ['\n'] else []) ++
      (escaped true 0 text ++ '"' :: '"' :: '"' :: rest)) = escaped true 0 text ++ '"' :: '"' :: '"' :: rest := by
    refine afterOpening_opening fun hline c hc => ?_
    cases text with
    | nil =>
      obtain rfl := Option.some.inj hc
      decide
    | cons d text =>
      rw [escaped] at hc
      rcases escapedChar_cases true 0 d with ⟨heq, -, -, hcontrol⟩ | ⟨e, heq, -⟩ <;> rw [heq] at hc <;>
        obtain rfl := Option.some.inj hc
      · have hplain : d ≠ '\n' := by
          rintro rfl
          simp at hline
        refine ⟨hplain, ?_⟩
        rintro rfl
        exact hplain (hcontrol rfl).1
      · decide
  simp only [tripled, List.cons_append, List.nil_append, List.append_assoc]
  rw [string?, hopening]
  exact multiBasicRest_escaped 0 text hrest

private theorem string?_multiLiteral (hruns : longestRun '\'' text < 3)
    (htext : ∀ c ∈ text, isControl c = true → c = '\n') (hrest : Unquoted rest) :
    string? (tripled '\'' (if text.contains '\n' then ['\n'] else []) text ++ rest) = some (text, rest) := by
  have hopening : afterOpening ((if text.contains '\n' then ['\n'] else []) ++
      (text ++ '\'' :: '\'' :: '\'' :: rest)) = text ++ '\'' :: '\'' :: '\'' :: rest := by
    refine afterOpening_opening fun hline c hc => ?_
    cases text with
    | nil =>
      obtain rfl := Option.some.inj hc
      decide
    | cons d text =>
      obtain rfl := Option.some.inj hc
      have hplain : d ≠ '\n' := by
        rintro rfl
        simp at hline
      refine ⟨hplain, ?_⟩
      rintro rfl
      exact hplain (htext _ List.mem_cons_self rfl)
  simp only [tripled, List.cons_append, List.nil_append, List.append_assoc]
  rw [string?, hopening]
  exact multiLiteralRest_text (shortRuns_of_longestRun hruns) htext hrest

/-- A text comes back from the string that it is written as. -/
theorem string?_writeString (text : List Char) (hrest : Unquoted rest) :
    string? (writeString text ++ rest) = some (text, rest) := by
  have hcontrols (h : (text.any fun c => isControl c && c != '\n') = false) :
      ∀ c ∈ text, isControl c = true → c = '\n' := by
    simpa using h
  have hbasic : '"' :: escaped false 0 text ++ ['"'] ++ rest = '"' :: (escaped false 0 text ++ '"' :: rest) := by simp
  unfold writeString
  dsimp only
  split
  · rw [hbasic, string?_basic text hrest]
  · split
    · rename_i h
      simp only [Bool.and_eq_true, Bool.not_eq_true'] at h
      obtain ⟨⟨hplain, hline⟩, hquote⟩ := h
      have htext : ∀ c ∈ text, c ≠ '\'' ∧ isControl c = false := by
        intro c hc
        refine ⟨?_, ?_⟩
        · rintro rfl
          simp [hc] at hquote
        · rw [← Bool.not_eq_true]
          intro hcontrol
          obtain rfl := hcontrols hplain c hc hcontrol
          simp [hc] at hline
      rw [List.cons_append, List.cons_append, List.append_assoc, List.singleton_append, string?_literal htext hrest]
    · split
      · exact string?_multiBasic text hrest
      · split
        · rename_i h
          simp only [Bool.and_eq_true, Bool.not_eq_true', decide_eq_true_eq] at h
          exact string?_multiLiteral h.2 (hcontrols h.1) hrest
        · split
          · rename_i hline
            have hmulti := string?_multiBasic text hrest
            rwa [if_pos hline] at hmulti
          · rw [hbasic, string?_basic text hrest]

end ScriptBridge.Toml
