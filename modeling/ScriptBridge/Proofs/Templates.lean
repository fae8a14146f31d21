import ScriptBridge.Script.Program

/-! Templates that are filled one slot after the other. A slot ends with its value, in which the names of the slots
behind it are replaced as well; where no value holds such a name the result is that of filling all slots at once. What
stands in the slots can be read off the filled text. -/
namespace ScriptBridge.Text

variable {σ : Type} {word replacement text value rest : List Char} {c d : Char}

private theorem replaceFrom_skip (text rest : List Char) :
    replaceFrom word replacement text.length (text ++ rest) = replaceFrom word replacement 0 rest := by
  induction text with
  | nil => rfl
  | cons c text ih => exact ih

private theorem replaceFrom_word (hword : word ≠ []) (rest : List Char) :
    replaceFrom word replacement 0 (word ++ rest) = replacement ++ replaceFrom word replacement 0 rest := by
  obtain ⟨c, tail, rfl⟩ := List.exists_cons_of_ne_nil hword
  have hfront : List.isPrefixOf (c :: tail) (c :: (tail ++ rest)) = true :=
    List.isPrefixOf_iff_prefix.2 (List.prefix_append (c :: tail) rest)
  rw [List.cons_append, replaceFrom, if_pos hfront, List.length_cons, Nat.add_sub_cancel, replaceFrom_skip]

private theorem replaceFrom_cons (hword : ¬word <+: c :: rest) :
    replaceFrom word replacement 0 (c :: rest) = c :: replaceFrom word replacement 0 rest := by
  rw [replaceFrom, if_neg (by rwa [List.isPrefixOf_iff_prefix])]

/-- A text without the first character of a word is passed over. -/
private theorem replaceFrom_text {tail : List Char} (htext : d ∉ text) (rest : List Char) :
    replaceFrom (d :: tail) replacement 0 (text ++ rest) = text ++ replaceFrom (d :: tail) replacement 0 rest := by
  induction text with
  | nil => rfl
  | cons c text ih =>
    have hprefix : ¬d :: tail <+: c :: (text ++ rest) := fun h => by
      obtain rfl : d = c := (List.cons_prefix_cons.1 h).1
      exact htext List.mem_cons_self
    rw [List.cons_append, replaceFrom_cons hprefix, ih fun hd => htext (List.mem_cons_of_mem c hd)]
    rfl

/-- A word does not begin before a character that it does not have and end behind it. -/
private theorem isPrefixOf_before (hd : d ∉ word) (value rest : List Char) :
    word.isPrefixOf (value ++ d :: rest) = word.isPrefixOf value := by
  rw [Bool.eq_iff_iff, List.isPrefixOf_iff_prefix, List.isPrefixOf_iff_prefix]
  constructor
  · intro h
    rcases List.prefix_or_prefix_of_prefix h (List.prefix_append value (d :: rest)) with hshort | ⟨tail, rfl⟩
    · exact hshort
    · rw [List.prefix_append_right_inj] at h
      cases tail with
      | nil => simp
      | cons e tail =>
        obtain rfl : e = d := (List.cons_prefix_cons.1 h).1
        exact absurd (by simp) hd
  · intro h
    exact h.trans (List.prefix_append _ _)

/-- What stands before such a character is searched by itself. -/
private theorem replaceFrom_before (hd : d ∉ word) (rest : List Char) {k : Nat} (hk : k ≤ value.length) :
    replaceFrom word replacement k (value ++ d :: rest) =
      replaceFrom word replacement k value ++ replaceFrom word replacement 0 (d :: rest) := by
  induction value generalizing k with
  | nil =>
    obtain rfl := Nat.le_zero.1 hk
    rfl
  | cons c value ih =>
    cases k with
    | succ k => exact ih (Nat.le_of_succ_le_succ hk)
    | zero =>
      have hsame := isPrefixOf_before hd (c :: value) rest
      rw [List.cons_append] at hsame ⊢
      rw [replaceFrom, replaceFrom, hsame]
      split
      · rename_i hprefix
        have hlength := (List.isPrefixOf_iff_prefix.1 hprefix).length_le
        rw [ih (by simpa using hlength), List.append_assoc]
      · rw [ih (Nat.zero_le _), List.cons_append]

/-- A text in which a word does not occur stays as it is. -/
theorem replaceWord_of_not_infix (htext : ¬word <:+: text) : replaceWord word replacement text = text := by
  unfold replaceWord
  induction text with
  | nil => rfl
  | cons c text ih =>
    rw [replaceFrom_cons fun h => htext h.isInfix, ih fun h => htext (h.trans (List.suffix_cons c text).isInfix)]

theorem replaceWord_self (hword : word ≠ []) : replaceWord word replacement word = replacement := by
  have h : replaceFrom word replacement 0 (word ++ []) = replacement ++ [] := replaceFrom_word hword []
  rwa [List.append_nil, List.append_nil] at h

/-- The texts of a template are made of certain characters, and behind each slot stands one of a few. -/
def Laid (inner : Char → Bool) (closing : List Char) : List (Piece σ) → Prop
  | [] => True
  | .literal text :: pieces => text.all inner = true ∧ Laid inner closing pieces
  | .slot _ :: pieces =>
    (∃ d text rest, pieces = .literal (d :: text) :: rest ∧ d ∈ closing) ∧ Laid inner closing pieces

/-- The slots of a template in order. -/
def slotsOf : List (Piece σ) → List σ
  | [] => []
  | .literal _ :: pieces => slotsOf pieces
  | .slot s :: pieces => s :: slotsOf pieces

variable {pieces : List (Piece σ)} {f : σ → List Char} {s : σ} {opening : Char} {inner : Char → Bool}
  {closing : List Char}

theorem fill_literal (f : σ → List Char) (text : List Char) (pieces : List (Piece σ)) :
    fill f (.literal text :: pieces) = text ++ fill f pieces := rfl

theorem fill_slot (f : σ → List Char) (s : σ) (pieces : List (Piece σ)) :
    fill f (.slot s :: pieces) = f s ++ fill f pieces := rfl

/-- The replacement of a word in a filled template is made in each slot by itself. -/
theorem replaceWord_fill (hlaid : Laid inner closing pieces) (hinner : inner opening = false)
    (hopening : word.head? = some opening) (hclosing : ∀ d ∈ closing, d ∉ word) :
    replaceWord word replacement (fill f pieces) = fill (fun s => replaceWord word replacement (f s)) pieces := by
  obtain ⟨tail, hword⟩ : ∃ tail, word = opening :: tail := List.head?_eq_some_iff.1 hopening
  induction pieces with
  | nil => rfl
  | cons piece pieces ih =>
    cases piece with
    | literal text =>
      have htext : opening ∉ text := fun h => by
        have hgood := List.all_eq_true.1 hlaid.1 opening h
        rw [hinner] at hgood
        cases hgood
      rw [fill_literal, fill_literal, ← ih hlaid.2, replaceWord, replaceWord, hword, replaceFrom_text htext]
    | slot s =>
      obtain ⟨⟨d, text, rest, rfl, hd⟩, hlaid⟩ := hlaid
      rw [fill_slot, fill_slot, ← ih hlaid, fill_literal]
      exact replaceFrom_before (hclosing d hd) _ (Nat.zero_le _)

section Slots

variable {name value : σ → List Char} {slots earlier later : List σ}

/-- Filling slots one after the other in a filled template is doing so in each slot by itself. -/
theorem replaceSlots_fill (hlaid : Laid inner closing pieces) (hinner : inner opening = false)
    (hname : ∀ s ∈ slots, (name s).head? = some opening ∧ ∀ d ∈ closing, d ∉ name s) :
    replaceSlots name value slots (fill f pieces) = fill (fun s => replaceSlots name value slots (f s)) pieces := by
  induction slots generalizing f with
  | nil => rfl
  | cons s slots ih =>
    obtain ⟨hopening, hclosing⟩ := hname s List.mem_cons_self
    simp only [replaceSlots, List.foldl_cons, replaceWord_fill hlaid hinner hopening hclosing]
    exact ih fun t ht => hname t (List.mem_cons_of_mem s ht)

theorem replaceSlots_of_not_infix (htext : ∀ s ∈ slots, ¬name s <:+: text) :
    replaceSlots name value slots text = text := by
  induction slots with
  | nil => rfl
  | cons s slots ih =>
    rw [replaceSlots, List.foldl_cons, replaceWord_of_not_infix (htext s List.mem_cons_self)]
    exact ih fun t ht => htext t (List.mem_cons_of_mem s ht)

/-- The name of a slot becomes its value, which is then searched for the names of the slots that come later. -/
theorem replaceSlots_name (hearlier : ∀ t ∈ earlier, ¬name t <:+: name s) (hname : name s ≠ []) :
    replaceSlots name value (earlier ++ s :: later) (name s) = replaceSlots name value later (value s) := by
  have hfirst : replaceSlots name value earlier (name s) = name s := replaceSlots_of_not_infix hearlier
  unfold replaceSlots at hfirst ⊢
  rw [List.foldl_append, hfirst, List.foldl_cons, replaceWord_self hname]

end Slots

end ScriptBridge.Text

namespace ScriptBridge.Script

open Text (Piece Laid slotsOf fill)
open Bootstrap (Slot)

variable {pieces : List (Piece Slot)} {f : Slot → List Char} {inner : Char → Bool} {closing : List Char}

private theorem takeWhile_value {value rest : List Char} {d : Char} (hd : d ∉ value) :
    (value ++ d :: rest).takeWhile (fun c => some c != some d) = value := by
  have hvalue : ∀ c ∈ value, (some c != some d) = true := fun c hc => by
    simpa using ne_of_mem_of_not_mem hc hd
  rw [List.takeWhile_append_of_pos hvalue]
  simp

/-- What fills a template is found again in its slots. -/
theorem captures?_fill (hlaid : Laid inner closing pieces) (hclosing : ∀ s, ∀ d ∈ closing, d ∉ f s) (rest : List Char) :
    captures? pieces (fill f pieces ++ rest) = some ((slotsOf pieces).map fun s => (s, f s), rest) := by
  induction pieces with
  | nil => rfl
  | cons piece pieces ih =>
    cases piece with
    | literal text =>
      have hfront : text.isPrefixOf (text ++ (fill f pieces ++ rest)) = true :=
        List.isPrefixOf_iff_prefix.2 (List.prefix_append _ _)
      rw [Text.fill_literal, captures?, List.append_assoc, if_pos hfront, List.drop_left, ih hlaid.2]
      rfl
    | slot s =>
      obtain ⟨⟨d, text, pieces, rfl, hd⟩, hlaid⟩ := hlaid
      have hvalue : (fill f (.slot s :: .literal (d :: text) :: pieces) ++ rest).takeWhile
          (fun c => some c != delimiter (.literal (d :: text) :: pieces)) = f s := by
        rw [Text.fill_slot, Text.fill_literal, List.append_assoc]
        exact takeWhile_value (hclosing s d hd)
      rw [captures?]
      simp only [hvalue]
      rw [Text.fill_slot, List.append_assoc, List.drop_left, ih hlaid]
      rfl

/-- All slots of one name are filled with the same. -/
theorem captured?_of_mem {s : Slot} {slots : List Slot} (hs : s ∈ slots) :
    captured? s (slots.map fun s => (s, f s)) = some (f s) := by
  have hfound : ∀ g ∈ (slots.map fun s => (s, f s)).filter fun g => g.1 == s, g = (s, f s) := by
    intro g hg
    obtain ⟨hg, hgs⟩ := List.mem_filter.1 hg
    obtain ⟨t, -, rfl⟩ := List.mem_map.1 hg
    obtain rfl : t = s := by simpa using hgs
    rfl
  have hmem : (s, f s) ∈ (slots.map fun s => (s, f s)).filter fun g => g.1 == s :=
    List.mem_filter.2 ⟨List.mem_map_of_mem hs, by simp⟩
  unfold captured?
  split
  · rename_i hnone
    rw [hnone] at hmem
    cases hmem
  · rename_i g others hsome
    rw [hsome] at hfound
    obtain rfl : g = (s, f s) := hfound g List.mem_cons_self
    rw [if_pos]
    rw [List.all_eq_true]
    intro g hg
    rw [hfound g (List.mem_cons_of_mem _ hg)]
    exact beq_self_eq_true _

end ScriptBridge.Script
