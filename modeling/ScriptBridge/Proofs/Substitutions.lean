import ScriptBridge.Proofs.InstallScripts

/-! The installing script as a substitution of names. The slots are filled one after the other, and a name that holds
the placeholder of a later slot is rewritten when that slot is filled. The script is the simultaneous substitution
exactly where this happens to no name. -/
namespace ScriptBridge

namespace Text

variable {word replacement text : List Char} {c : Char}

private theorem mem_replaceFrom {k : Nat} (hc : c ∈ replaceFrom word replacement k text) :
    c ∈ replacement ∨ c ∈ text := by
  induction text generalizing k with
  | nil => cases k <;> cases hc
  | cons d text ih =>
    cases k with
    | succ k => exact (ih hc).imp_right (List.mem_cons_of_mem d)
    | zero =>
      rw [replaceFrom] at hc
      split at hc
      · rcases List.mem_append.1 hc with hc | hc
        · exact .inl hc
        · exact (ih hc).imp_right (List.mem_cons_of_mem d)
      · rcases List.mem_cons.1 hc with rfl | hc
        · exact .inr List.mem_cons_self
        · exact (ih hc).imp_right (List.mem_cons_of_mem d)

/-- A replacement brings in no characters but those of the values. -/
theorem mem_replaceSlots {σ : Type} {name value : σ → List Char} {slots : List σ}
    (hc : c ∈ replaceSlots name value slots text) : (∃ s ∈ slots, c ∈ value s) ∨ c ∈ text := by
  induction slots generalizing text with
  | nil => exact .inr hc
  | cons s slots ih =>
    rcases ih hc with ⟨t, ht, hc⟩ | hc
    · exact .inl ⟨t, List.mem_cons_of_mem s ht, hc⟩
    · rcases mem_replaceFrom hc with hc | hc
      · exact .inl ⟨s, List.mem_cons_self, hc⟩
      · exact .inr hc

end Text

namespace Bootstrap

open Text (fill)

variable {c : Config}

theorem isBare_final (hsound : c.Sound) (s : Slot) : IsBare (s.final c) := by
  intro d hd
  rcases Text.mem_replaceSlots hd with ⟨t, -, hd⟩ | hd
  · exact isBare_value hsound t d hd
  · exact isBare_value hsound s d hd

/-- The filled template tells what each slot holds. -/
theorem eq_of_fill_template {f g : Slot → List Char} (hf : ∀ s, IsBare (f s)) (hg : ∀ s, IsBare (g s))
    (h : fill f template = fill g template) (s : Slot) : f s = g s := by
  have hcaptured (f : Slot → List Char) (hf : ∀ s, IsBare (f s)) :=
    Script.captures?_fill laid_template (fun s => not_mem_of_closing (hf s)) []
  have heq := (hcaptured f hf).symm.trans (h ▸ hcaptured g hg)
  have hslots := (Prod.mk.inj (Option.some.inj heq)).1
  exact (Prod.mk.inj (List.map_inj_left.1 hslots s (mem_slotsOf_template s))).2

/-- The installing script is the template with all its slots filled at once, exactly where the slots that are filled
later leave every value as it is. -/
theorem install_eq_fill_iff (hsound : c.Sound) :
    (install c).toList = fill (Slot.value c) template ↔ ∀ s : Slot, s.final c = s.value c := by
  rw [install_toList_final]
  constructor
  · exact eq_of_fill_template (isBare_final hsound) (isBare_value hsound)
  · intro hfinal
    rw [funext hfinal]

/-- The converter's slot is filled last, so it holds the converter's own name. The name of the table may still be
rewritten then. -/
theorem final_converter (c : Config) : Slot.converter.final c = c.converterName.toList := rfl

theorem final_table (c : Config) : Slot.table.final c =
    Text.replaceWord Slot.converter.placeholder c.converterName.toList c.tableName.toList := rfl

/-- A table that has the placeholder of the converter for its name is installed under the name of the converter, while
the probes go on asking for it by its own. -/
theorem install_ne_fill (hvalid : c.validate = .ok ()) (htable : c.tableName.toList = Slot.converter.placeholder) :
    (install c).toList ≠ fill (Slot.value c) template := by
  intro h
  have hsound := Config.sound_of_validate hvalid
  have hfinal : Slot.table.final c = c.tableName.toList := (install_eq_fill_iff hsound).1 h .table
  have hconverter : Slot.table.final c = c.converterName.toList := by
    rw [final_table, htable, Text.replaceWord_self (by decide)]
  exact hsound.apart (String.toList_injective (hfinal.symm.trans hconverter))

theorem install_ne_fill_default :
    let c : Config := { tableName := "__CONVERTER__" }
    c.validate = .ok () ∧ (install c).toList ≠ fill (Slot.value c) template := by
  intro c
  have hfault : c.fault? = none := by decide
  have hvalid : c.validate = .ok () := by rw [Config.validate, hfault]
  exact ⟨hvalid, install_ne_fill hvalid rfl⟩

end Bootstrap
end ScriptBridge
