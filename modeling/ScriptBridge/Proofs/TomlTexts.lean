import ScriptBridge.Proofs.Numerals
import ScriptBridge.Proofs.TomlStrings
import ScriptBridge.Toml.Reader

/-! TOML documents that are written line by line: fields with bare keys, first those of the document itself and then
those of its tables, each under its header. -/
namespace ScriptBridge.Toml

open Grammar (span_append span_append_cons)

/-! Lines. -/

/-- A text is read as a value in front of the end of its line. -/
structure Readable (text : List Char) (v : Toml) : Prop where
  head : ∀ c ∈ text.head?, isBlank c = false
  read : ∀ fuel rest, value? (fuel + 1) (text ++ '\n' :: rest) = some (v, '\n' :: rest)
  flat : v.depth = 0

/-- A field with the text of its value. -/
structure Entry where
  key : String
  text : List Char
  value : Toml

namespace Entry

def pair (e : Entry) : String × Toml := (e.key, e.value)

def statement (e : Entry) : Statement := .field [] e.key e.value

end Entry

inductive Line where
  | field (e : Entry)
  | header (key : String)

namespace Line

def text : Line → List Char
  | field e => e.key.toList ++ [' ', '=', ' '] ++ e.text ++ ['\n']
  | header key => '\n' :: '[' :: key.toList ++ [']', '\n']

def statement : Line → Statement
  | field e => e.statement
  | header key => .tableHeader [] key

end Line

/-- A key that takes no quotes. -/
def IsBareKey (key : String) : Prop := key.toList ≠ [] ∧ ∀ c ∈ key.toList, isBareKeyChar c = true

instance (key : String) : Decidable (IsBareKey key) :=
  decidable_of_iff (key.toList ≠ [] ∧ key.toList.all isBareKeyChar = true) (and_congr_right' List.all_eq_true)

def Line.WellFormed : Line → Prop
  | field e => IsBareKey e.key ∧ Readable e.text e.value
  | header key => IsBareKey key

private theorem skipBlank_cons {c : Char} (hc : isBlank c = false) (rest : List Char) :
    skipBlank (c :: rest) = c :: rest := by
  rw [skipBlank, List.dropWhile_cons, hc, if_neg Bool.false_ne_true]

private theorem ne_of_isBareKeyChar {c d : Char} (hc : isBareKeyChar c = true) (hd : isBareKeyChar d = false) :
    c ≠ d := by
  rintro rfl
  exact Bool.false_ne_true (hd.symm.trans hc)

private theorem isBlank_of_isBareKeyChar {c : Char} (hc : isBareKeyChar c = true) : isBlank c = false := by
  have hspace := ne_of_isBareKeyChar hc (d := ' ') (by decide)
  have htab := ne_of_isBareKeyChar hc (d := '\t') (by decide)
  simp [isBlank, hspace, htab]

private theorem afterLineEnd?_cons {c : Char} (hline : c ≠ '\n') (hreturn : c ≠ '\r') (rest : List Char) :
    afterLineEnd? (c :: rest) = none := by
  unfold afterLineEnd?
  split <;> simp_all

/-- What a statement begins with is not skipped. -/
private theorem skipLines?_cons {c : Char} (hblank : isBlank c = false) (hmark : c ≠ '#') (hline : c ≠ '\n')
    (hreturn : c ≠ '\r') (fuel : Nat) (rest : List Char) : skipLines? (fuel + 1) (c :: rest) = some (c :: rest) := by
  rw [skipLines?, skipBlank_cons hblank]
  split
  · simp_all
  · rw [afterLineEnd?_cons hline hreturn]

/-- A bare key begins with a character that opens neither quotes nor brackets. -/
private theorem IsBareKey.cons {key : String} (hkey : IsBareKey key) :
    ∃ c more, key.toList = c :: more ∧ isBlank c = false ∧ ∀ d, isBareKeyChar d = false → c ≠ d := by
  obtain ⟨c, more, hcons⟩ := List.exists_cons_of_ne_nil hkey.1
  have hc := hkey.2 c (by rw [hcons]; exact List.mem_cons_self)
  exact ⟨c, more, hcons, isBlank_of_isBareKeyChar hc, fun d hd => ne_of_isBareKeyChar hc hd⟩

private theorem simpleKey?_bare {key : String} (hkey : IsBareKey key) {c : Char} (hc : isBareKeyChar c = false)
    (rest : List Char) : simpleKey? (key.toList ++ c :: rest) = some (key, c :: rest) := by
  obtain ⟨htake, hdrop⟩ := span_append_cons hkey.2 hc rest
  obtain ⟨k, more, hcons, -, hne⟩ := hkey.cons
  have hword : (key.toList.isEmpty) = false := by rw [hcons]; rfl
  have hdouble := hne '"' (by decide)
  have hsingle := hne '\'' (by decide)
  unfold simpleKey?
  split
  · rename_i heq
    rw [hcons] at heq
    exact absurd (List.cons.inj heq).1 hdouble
  · rename_i heq
    rw [hcons] at heq
    exact absurd (List.cons.inj heq).1 hsingle
  · simp only [htake, hdrop, hword, Bool.false_eq_true, if_false, String.ofList_toList]

private theorem key?_bare {key : String} (hkey : IsBareKey key) {c d : Char} {before rest : List Char}
    (hc : isBareKeyChar c = false) (hskip : skipBlank (c :: before) = d :: rest) (hd : d ≠ '.') :
    key? (key.toList ++ c :: before) = some ([], key, d :: rest) := by
  obtain ⟨k, more, hcons, hblank, -⟩ := hkey.cons
  have hstart : skipBlank (key.toList ++ c :: before) = key.toList ++ c :: before := by
    rw [hcons, List.cons_append, skipBlank_cons hblank]
  rw [key?, maxDepth, keyParts?, hstart, simpleKey?_bare hkey hc]
  simp only [hskip]
  split
  · simp_all
  · rfl

private theorem afterStatement?_line (rest : List Char) : afterStatement? ('\n' :: rest) = some rest := rfl

private theorem statement?_field {e : Entry} (hkey : IsBareKey e.key) (htext : Readable e.text e.value)
    (rest : List Char) :
    statement? (e.key.toList ++ ' ' :: '=' :: ' ' :: (e.text ++ '\n' :: rest)) = some (e.statement, '\n' :: rest) := by
  have hread : key? (e.key.toList ++ ' ' :: '=' :: ' ' :: (e.text ++ '\n' :: rest)) =
      some ([], e.key, '=' :: ' ' :: (e.text ++ '\n' :: rest)) := key?_bare hkey (by decide) rfl (by decide)
  have hskip : skipBlank (' ' :: (e.text ++ '\n' :: rest)) = e.text ++ '\n' :: rest := by
    have hspace : skipBlank (' ' :: (e.text ++ '\n' :: rest)) = skipBlank (e.text ++ '\n' :: rest) := rfl
    rw [hspace]
    cases hcs : e.text with
    | nil => exact skipBlank_cons (by decide) _
    | cons c cs => exact skipBlank_cons (htext.head c (by rw [hcs]; rfl)) _
  obtain ⟨k, more, hcons, -, hne⟩ := hkey.cons
  have hbracket := hne '[' (by decide)
  unfold statement?
  split
  · rename_i heq
    rw [hcons] at heq
    exact absurd (List.cons.inj heq).1 hbracket
  · rename_i heq
    rw [hcons] at heq
    exact absurd (List.cons.inj heq).1 hbracket
  · rw [hread]
    simp only [hskip, htext.read]
    rw [htext.flat, if_pos (Nat.zero_le _)]
    rfl

private theorem statement?_header {key : String} (hkey : IsBareKey key) (rest : List Char) :
    statement? ('[' :: (key.toList ++ ']' :: '\n' :: rest)) = some (.tableHeader [] key, '\n' :: rest) := by
  have hread : key? (key.toList ++ ']' :: '\n' :: rest) = some ([], key, ']' :: '\n' :: rest) :=
    key?_bare hkey (by decide) (skipBlank_cons (by decide) _) (by decide)
  obtain ⟨k, more, hcons, -, hne⟩ := hkey.cons
  have hbracket := hne '[' (by decide)
  unfold statement?
  split
  · rename_i heq
    rw [hcons] at heq
    exact absurd (List.cons.inj (List.cons.inj heq).2).1 hbracket
  · rename_i heq
    rw [← (List.cons.inj heq).2, hread]
    rfl
  · simp_all

private theorem statements?_step {input cs rest : List Char} {c : Char} {s : Statement}
    (hskip : skipLines? (input.length + 1) input = some (c :: cs)) (hs : statement? (c :: cs) = some (s, '\n' :: rest))
    (fuel : Nat) : statements? (fuel + 1) input = (statements? fuel rest).map (s :: ·) := by
  rw [statements?, hskip]
  simp only [hs, afterStatement?_line]

theorem statements?_line {l : Line} (hl : l.WellFormed) (fuel : Nat) (rest : List Char) :
    statements? (fuel + 1) (l.text ++ rest) = (statements? fuel rest).map (l.statement :: ·) := by
  cases l with
  | field e =>
    have htext : (Line.field e).text ++ rest = e.key.toList ++ ' ' :: '=' :: ' ' :: (e.text ++ '\n' :: rest) := by
      simp [Line.text]
    have hstatement := statement?_field hl.1 hl.2 rest
    obtain ⟨k, more, hcons, hblank, hne⟩ := hl.1.cons
    rw [htext]
    rw [hcons] at hstatement ⊢
    exact statements?_step
      (skipLines?_cons hblank (hne _ (by decide)) (hne _ (by decide)) (hne _ (by decide)) _ _) hstatement fuel
  | header key =>
    have htext : (Line.header key).text ++ rest = '\n' :: '[' :: (key.toList ++ ']' :: '\n' :: rest) := by
      simp [Line.text]
    have hskip (cs : List Char) : skipLines? (('\n' :: '[' :: cs).length + 1) ('\n' :: '[' :: cs) = some ('[' :: cs) := by
      rw [List.length_cons, List.length_cons, ← skipLines?_cons (c := '[') (by decide) (by decide) (by decide) (by decide)
        cs.length cs]
      rfl
    rw [htext]
    exact statements?_step (hskip _) (statement?_header hl rest) fuel

theorem statements?_lines {ls : List Line} (hls : ∀ l ∈ ls, l.WellFormed) {fuel : Nat} (hfuel : ls.length < fuel) :
    statements? fuel (ls.flatMap Line.text) = some (ls.map Line.statement) := by
  induction ls generalizing fuel with
  | nil =>
    obtain ⟨fuel, rfl⟩ := Nat.exists_eq_add_one.2 hfuel
    rfl
  | cons l ls ih =>
    obtain ⟨fuel, rfl⟩ := Nat.exists_eq_add_one.2 (Nat.lt_of_le_of_lt (Nat.zero_le _) hfuel)
    rw [List.length_cons] at hfuel
    rw [List.flatMap_cons, statements?_line (hls l List.mem_cons_self),
      ih (fun l hl => hls l (List.mem_cons_of_mem _ hl)) (by omega)]
    rfl

/-- A line is not empty, and no mark of byte order stands in front of it. -/
private theorem Line.WellFormed.cons {l : Line} (hl : l.WellFormed) :
    ∃ c cs, l.text = c :: cs ∧ c ≠ byteOrderMark := by
  cases l with
  | field e =>
    obtain ⟨c, more, hcons, -, hne⟩ := hl.1.cons
    exact ⟨c, more ++ ([' ', '=', ' '] ++ e.text ++ ['\n']), by simp [Line.text, hcons], hne _ (by decide)⟩
  | header key => exact ⟨'\n', _, rfl, by decide⟩

private theorem length_le_lines {ls : List Line} (hls : ∀ l ∈ ls, l.WellFormed) :
    ls.length ≤ (ls.flatMap Line.text).length := by
  induction ls with
  | nil => exact Nat.le_refl 0
  | cons l ls ih =>
    obtain ⟨c, cs, hcons, -⟩ := (hls l List.mem_cons_self).cons
    have hrest := ih fun l hl => hls l (List.mem_cons_of_mem _ hl)
    rw [List.flatMap_cons, List.length_append, hcons, List.length_cons, List.length_cons]
    omega

theorem parse?_lines {ls : List Line} (hls : ∀ l ∈ ls, l.WellFormed) :
    parse? (ls.flatMap Line.text) = ofStatements? (ls.map Line.statement) := by
  have hmark : ((ls.flatMap Line.text).head? == some byteOrderMark) = false := by
    cases ls with
    | nil => rfl
    | cons l ls =>
      obtain ⟨c, cs, hcons, hc⟩ := (hls l List.mem_cons_self).cons
      rw [List.flatMap_cons, hcons]
      exact beq_eq_false_iff_ne.2 fun h => hc (Option.some.inj h)
  have hread := statements?_lines hls (Nat.lt_succ_of_le (length_le_lines hls))
  rw [parse?]
  simp only [hmark, Bool.false_eq_true, if_false]
  rw [hread, Option.bind_some]

/-! Values. -/

private theorem value?_of_string {c : Char} (hc : c = '"' ∨ c = '\'') (fuel : Nat) (cs : List Char) :
    value? (fuel + 1) (c :: cs) = (string? (c :: cs)).map fun r => (.text (String.ofList r.1), r.2) := by
  rcases hc with rfl | rfl <;> rfl

private theorem writeString_cons (text : List Char) : ∃ c cs, writeString text = c :: cs ∧ (c = '"' ∨ c = '\'') := by
  unfold writeString
  dsimp only
  split
  · exact ⟨_, _, rfl, .inl rfl⟩
  · split
    · exact ⟨_, _, rfl, .inr rfl⟩
    · split
      · exact ⟨_, _, rfl, .inl rfl⟩
      · split
        · exact ⟨_, _, rfl, .inr rfl⟩
        · split <;> exact ⟨_, _, rfl, .inl rfl⟩

theorem readable_string (s : String) : Readable (writeString s.toList) (.text s) := by
  obtain ⟨c, cs, hcons, hc⟩ := writeString_cons s.toList
  refine ⟨fun d hd => ?_, fun fuel rest => ?_, rfl⟩
  · rw [hcons] at hd
    obtain rfl := Option.some.inj hd
    rcases hc with rfl | rfl <;> rfl
  · have hend : Unquoted ('\n' :: rest) := fun d hd => by
      obtain rfl := Option.some.inj hd
      decide
    have hread := string?_writeString s.toList hend
    rw [hcons, List.cons_append] at hread ⊢
    rw [value?_of_string hc, hread, Option.map_some, String.ofList_toList]

private theorem ne_of_isBareChar {c d : Char} (hc : isBareChar c = true) (hd : isBareChar d = false) : c ≠ d := by
  rintro rfl
  exact Bool.false_ne_true (hd.symm.trans hc)

private theorem bareWord_line {word : List Char} (hword : ∀ c ∈ word, isBareChar c = true) (rest : List Char) :
    bareWord (word ++ '\n' :: rest) = (word, '\n' :: rest) := by
  obtain ⟨htake, hdrop⟩ := span_append_cons hword (c := '\n') (by decide) rest
  rw [bareWord]
  simp only [htake, hdrop]
  rfl

theorem readable_bare {word : List Char} {v : Toml} (hne : word ≠ []) (hword : ∀ c ∈ word, isBareChar c = true)
    (hv : bare? word = some v) (hflat : v.depth = 0) : Readable word v := by
  obtain ⟨c, cs, hcons⟩ := List.exists_cons_of_ne_nil hne
  have hc : isBareChar c = true := hword c (by rw [hcons]; exact List.mem_cons_self)
  refine ⟨fun d hd => ?_, fun fuel rest => ?_, hflat⟩
  · rw [hcons] at hd
    obtain rfl := Option.some.inj hd
    have hspace := ne_of_isBareChar hc (d := ' ') (by decide)
    have htab := ne_of_isBareChar hc (d := '\t') (by decide)
    simp [isBlank, hspace, htab]
  · have hread := bareWord_line hword rest
    have hdouble := ne_of_isBareChar hc (d := '"') (by decide)
    have hsingle := ne_of_isBareChar hc (d := '\'') (by decide)
    have hbracket := ne_of_isBareChar hc (d := '[') (by decide)
    have hbrace := ne_of_isBareChar hc (d := '\x7b') (by decide)
    rw [hcons, List.cons_append] at hread ⊢
    unfold value?
    split <;> simp_all

theorem readable_true : Readable ['t', 'r', 'u', 'e'] (.bool true) :=
  readable_bare nofun (List.all_eq_true.1 (by decide)) rfl rfl

theorem readable_false : Readable ['f', 'a', 'l', 's', 'e'] (.bool false) :=
  readable_bare nofun (List.all_eq_true.1 (by decide)) rfl rfl

private theorem grouped?_digits {ds : List Char} (hne : ds ≠ []) (hds : ∀ c ∈ ds, c.isDigit = true) :
    grouped? Char.isDigit ds = some ds := by
  induction ds with
  | nil => exact absurd rfl hne
  | cons c ds ih =>
    have hc := hds c List.mem_cons_self
    cases ds with
    | nil => rw [grouped?, hc, if_pos rfl]
    | cons d ds =>
      have hd : d ≠ '_' := by
        rintro rfl
        exact Bool.false_ne_true (hds '_' (by simp))
      rw [grouped?, hc, if_pos rfl, ih nofun fun e he => hds e (List.mem_cons_of_mem c he)]
      · rfl
      · nofun
      · rintro _ h
        exact hd (List.cons.inj h).1

private theorem decimal_cons (n : Nat) :
    ∃ c t, Text.decimal n = c :: t ∧ c.isDigit = true ∧ (c = '0' → t = []) := by
  obtain ⟨c, t, (hcons : Text.decimal n = c :: t), hzero⟩ := Script.Numeral.leading_decimal n
  have hmem : c ∈ Text.decimal n := by simp [hcons]
  exact ⟨c, t, hcons, Text.isDigit_of_mem_decimal hmem, hzero⟩

private theorem wholePart?_decimal (n : Nat) : wholePart? (Text.decimal n) = some (Text.decimal n) := by
  obtain ⟨c, t, hcons, -, hzero⟩ := decimal_cons n
  have hlead : ((Text.decimal n).head? == some '0' && decide (1 < (Text.decimal n).length)) = false := by
    rw [hcons]
    by_cases hc : c = '0'
    · simp [hzero hc]
    · simp [hc]
  rw [wholePart?, grouped?_digits (Text.decimal_ne_nil n) fun c => Text.isDigit_of_mem_decimal]
  simp only [hlead, Bool.false_eq_true, if_false]

private theorem integer?_decimal (n : Nat) : integer? (Text.decimal n) = some (n : Int) := by
  obtain ⟨c, t, hcons, hdigit, hzero⟩ := decimal_cons n
  have hsigned : signed (Text.decimal n) = (false, Text.decimal n) := by
    rw [hcons]
    unfold signed
    split
    · rename_i heq
      obtain rfl := (List.cons.inj heq).1
      cases hdigit
    · rename_i heq
      obtain rfl := (List.cons.inj heq).1
      cases hdigit
    · rfl
  have hbase {d : Char} {rest : List Char} (h : Text.decimal n = '0' :: d :: rest) : False := by
    rw [hcons] at h
    obtain ⟨hc, ht⟩ := List.cons.inj h
    rw [hzero hc] at ht
    cases ht
  unfold integer?
  split
  · exact (hbase ‹_›).elim
  · exact (hbase ‹_›).elim
  · exact (hbase ‹_›).elim
  · simp only [hsigned, wholePart?_decimal, Option.map_some, Bool.false_eq_true, if_false, Text.numeral_decimal]

theorem readable_decimal {n : Nat} (hn : n < 2 ^ 64) : Readable (Text.decimal n) (.integer n) := by
  have hdigits : ∀ c ∈ Text.decimal n, c.isDigit = true := fun c => Text.isDigit_of_mem_decimal
  have hword {c : Char} {cs : List Char} (hc : c.isDigit = false) : (Text.decimal n == c :: cs) = false := by
    rw [beq_eq_false_iff_ne]
    intro h
    exact Bool.false_ne_true (hc.symm.trans (hdigits c (by rw [h]; exact List.mem_cons_self)))
  have hrange : inRange n = true := by
    simp only [inRange, Bool.and_eq_true, decide_eq_true_eq]
    omega
  refine readable_bare (Text.decimal_ne_nil n) (fun d hd => ?_) ?_ rfl
  · simp [isBareChar, Char.isAlphanum, hdigits d hd]
  · rw [bare?, hword (by decide), hword (by decide), integer?_decimal]
    simp only [hrange, Bool.false_eq_true, if_false, if_true]

/-! Trees. Headers that differ put their tables into the document one after the other. -/

/-- A table with its header. -/
structure Section where
  key : String
  entries : List Entry

namespace Section

def lines (t : Section) : List Line := .header t.key :: t.entries.map .field

def statements (t : Section) : List Statement := .tableHeader [] t.key :: t.entries.map Entry.statement

def pair (t : Section) : String × Toml := (t.key, .table .header (t.entries.map Entry.pair))

end Section

private theorem find?_eq_none {key : String} {fields : Fields} (h : key ∉ fields.map Prod.fst) :
    find? key fields = none := by
  rw [find?, Option.map_eq_none_iff, List.find?_eq_none]
  intro f hf hkey
  exact h (List.mem_map.2 ⟨f, hf, eq_of_beq hkey⟩)

private theorem put_new {key : String} {fields : Fields} (h : key ∉ fields.map Prod.fst) (v : Toml) :
    put key v fields = fields ++ [(key, v)] := by
  induction fields with
  | nil => rfl
  | cons f fields ih =>
    simp only [List.map_cons, List.mem_cons, not_or] at h
    have hne : (f.1 == key) = false := beq_eq_false_iff_ne.2 (Ne.symm h.1)
    rw [put, hne, if_neg Bool.false_ne_true, ih h.2, List.cons_append]

namespace Draft

private theorem step?_field {d : Draft} {key : String} (h : key ∉ d.current.map Prod.fst) (v : Toml) :
    d.step? (.field [] key v) = some { d with current := d.current ++ [(key, v)] } := by
  have hadd : addKey [] key v .header d.current = some (d.current ++ [(key, v)]) := by
    rw [addKey, descend, if_neg (by decide), addField, find?_eq_none h]
    rfl
  rw [step?, hadd]
  rfl

private theorem steps_fields (d : Draft) (es : List Entry)
    (h : (d.current.map Prod.fst ++ es.map Entry.key).Nodup) :
    (es.map Entry.statement).foldlM step? d = some { d with current := d.current ++ es.map Entry.pair } := by
  induction es generalizing d with
  | nil => simp
  | cons e es ih =>
    have hnew : e.key ∉ d.current.map Prod.fst := by
      rw [List.nodup_append] at h
      intro hmem
      exact h.2.2 _ hmem e.key (by simp) rfl
    rw [List.map_cons, List.foldlM_cons, Entry.statement, step?_field hnew e.value, Option.bind_eq_bind, Option.bind_some,
      ih _ (by simpa using h), List.append_assoc]
    rfl

private theorem step?_header {d : Draft} {root : Fields} (hclose : d.close? = some root) {key : String}
    (h : key ∉ root.map Prod.fst) : d.step? (.tableHeader [] key) = some ⟨root, some (.tableHeader [] key), []⟩ := by
  have hfind := find?_eq_none h
  simp [step?, hclose, start?, descend, opened?, fieldsAt, hfind]

private theorem close?_table {root : Fields} {key : String} (h : key ∉ root.map Prod.fst) (fields : Fields) :
    close? ⟨root, some (.tableHeader [] key), fields⟩ = some (root ++ [(key, .table .header fields)]) := by
  rw [← put_new h]
  rfl

private theorem steps_sections {d : Draft} {root : Fields} (hclose : d.close? = some root) (ts : List Section)
    (hkeys : (root.map Prod.fst ++ ts.map Section.key).Nodup)
    (hentries : ∀ t ∈ ts, (t.entries.map Entry.key).Nodup) :
    ((ts.flatMap Section.statements).foldlM step? d).bind close? = some (root ++ ts.map Section.pair) := by
  -- A table enters the root where the next header closes it, so the induction is over every open table.
  induction ts generalizing d root with
  | nil => simpa using hclose
  | cons t ts ih =>
    have hnew : t.key ∉ root.map Prod.fst := by
      rw [List.nodup_append] at hkeys
      intro hmem
      exact hkeys.2.2 _ hmem t.key (by simp) rfl
    have hfields := steps_fields ⟨root, some (.tableHeader [] t.key), []⟩ t.entries
      (by simpa using hentries t List.mem_cons_self)
    have hrest := ih (close?_table hnew (t.entries.map Entry.pair)) (by simpa using hkeys)
      fun u hu => hentries u (List.mem_cons_of_mem _ hu)
    rw [List.flatMap_cons, List.foldlM_append, Section.statements, List.foldlM_cons, step?_header hclose hnew]
    simp only [Option.bind_eq_bind, Option.bind_some, hfields, List.nil_append]
    rw [hrest, List.map_cons, List.append_assoc, List.singleton_append]
    rfl

end Draft

/-- A document of fields and tables is read as these fields and tables, when their keys differ. -/
theorem parse?_document {es : List Entry} {ts : List Section}
    (hlines : ∀ l ∈ es.map Line.field ++ ts.flatMap Section.lines, l.WellFormed)
    (hkeys : (es.map Entry.key ++ ts.map Section.key).Nodup) (hentries : ∀ t ∈ ts, (t.entries.map Entry.key).Nodup) :
    parse? ((es.map Line.field ++ ts.flatMap Section.lines).flatMap Line.text) =
      some (es.map Entry.pair ++ ts.map Section.pair) := by
  have hstatements : (es.map Line.field ++ ts.flatMap Section.lines).map Line.statement =
      es.map Entry.statement ++ ts.flatMap Section.statements := by
    simp only [List.map_append, List.map_map, List.map_flatMap, Section.lines, List.map_cons]
    rfl
  have hfields := Draft.steps_fields Draft.empty es (List.nodup_append.1 hkeys).1
  have hsections := Draft.steps_sections (d := ⟨[], none, es.map Entry.pair⟩) rfl ts
    (by simpa [Function.comp_def, Entry.pair] using hkeys) hentries
  rw [parse?_lines hlines, hstatements, ofStatements?, List.foldlM_append, hfields]
  exact hsections

end ScriptBridge.Toml
