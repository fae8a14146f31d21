import ScriptBridge.Proofs.StringLiteral

/-! Escaped texts between quotes. Whatever stands behind the closing quote, the literal ends there and stands for the
text, so that no text can end its literal early, and different texts are escaped differently. -/
namespace ScriptBridge.StringLiteral

/-- A source begins with a literal that stands for these units, and leaves this text behind its closing quote. -/
def Reads (source : List Char) (us : List Nat) (rest : List Char) : Prop :=
  ∃ ps, WellFormed ps ∧ source = '\'' :: text ps ++ '\'' :: rest ∧ units ps = us

/-- A text has one sequence of pieces in front of its closing quote. -/
theorem eq_of_text_append {ps qs : List Piece} (hps : WellFormed ps) (hqs : WellFormed qs) {rest rest' : List Char}
    (h : text ps ++ '\'' :: rest = text qs ++ '\'' :: rest') : ps = qs ∧ rest = rest' := by
  have hfuel : ps.length < ps.length + qs.length + 1 := by omega
  have hfuel' : qs.length < ps.length + qs.length + 1 := by omega
  have hread := read_text hps hfuel rest
  have hread' := read_text hqs hfuel' rest'
  rw [h, hread'] at hread
  obtain ⟨hpieces, hrest⟩ := Prod.mk.inj (Option.some.inj hread)
  exact ⟨hpieces.symm, hrest.symm⟩

/-- A source is read in one way. -/
theorem Reads.unique {source rest rest' : List Char} {us us' : List Nat} (h : Reads source us rest)
    (h' : Reads source us' rest') : us = us' ∧ rest = rest' := by
  obtain ⟨ps, hps, hsource, rfl⟩ := h
  obtain ⟨qs, hqs, hsource', rfl⟩ := h'
  rw [hsource, List.cons_append, List.cons_append] at hsource'
  obtain ⟨rfl, rfl⟩ := eq_of_text_append hps hqs (List.cons.inj hsource').2
  exact ⟨rfl, rfl⟩

theorem reads_escape (s rest : List Char) :
    Reads ('\'' :: Text.escape s ++ '\'' :: rest) (Text.units s) rest :=
  ⟨s.map ofChar, wellFormed_map_ofChar s, by rw [text_map_ofChar], units_map_ofChar s⟩

end ScriptBridge.StringLiteral

namespace ScriptBridge.Text

open StringLiteral (Reads reads_escape)

/-- What a character is replaced by when no replacement sees what another one has written. -/
def escaped (c : Char) : List Char := (escapes.lookup c).elim [c] fun d => ['\\', d]

/-- The replacements, made one after the other in the whole text, are one substitution of characters. -/
theorem escape_eq_escaped (text : List Char) : escape text = text.flatMap escaped := by
  rw [escape_eq_flatMap]
  congr 1
  funext c
  rw [← StringLiteral.ofChar_text, StringLiteral.ofChar, escaped]
  cases escapes.lookup c <;> rfl

theorem escape_injective : Function.Injective escape := by
  intro s s' h
  have hread := reads_escape s []
  rw [h] at hread
  have hunits := (hread.unique (reads_escape s' [])).1
  exact Option.some.inj (by rw [← ofUnits?_units s, hunits, ofUnits?_units])

/-- An escaped text in quotes is read as the text, up to the quote behind it and no further. The replacements that
make it are a substitution of single characters, and no two texts are escaped alike. -/
theorem escape_stays_in_quotes :
    (∀ s rest us rest', Reads ('\'' :: escape s ++ '\'' :: rest) us rest' ↔ us = units s ∧ rest' = rest) ∧
      (∀ s, escape s = s.flatMap escaped) ∧ Function.Injective escape := by
  refine ⟨fun s rest us rest' => ⟨fun h => h.unique (reads_escape s rest), ?_⟩, escape_eq_escaped, escape_injective⟩
  rintro ⟨rfl, rfl⟩
  exact reads_escape s rest'

end ScriptBridge.Text
