import ScriptBridge.Proofs.OrderlyTables

/-! Tables side by side. A table is not disturbed by the functions of a table with another tag, nor by the installation of
one, so that an object is found in its slot in either of them, whatever is registered with the other. Tables that share a
tag are out of it: the tag of an object that both know is the handle of the last one. -/
namespace ScriptBridge.Script

variable {h h' h'' : Heap} {m m' : Memory} {a : Address} {n : Nat} {v root : Value} {slots slots' : List Value} {x : String}
  {i : Installation}

theorem Object.Alike.trans {o o' o'' : Object} (halike : Alike o o') (halike' : Alike o' o'') : Alike o o'' :=
  ⟨halike'.kind.trans halike.kind, halike'.proto.trans halike.proto, halike'.extensible.trans halike.extensible,
    halike'.elements.trans halike.elements⟩

theorem Memory.Undisturbed.trans (hundisturbed : m.Undisturbed h h') (hundisturbed' : m.Undisturbed h' h'') :
    m.Undisturbed h h'' where
  size := hundisturbed.size.trans hundisturbed'.size
  foundations hfoundations := hundisturbed'.foundations (hundisturbed.foundations hfoundations)
  works hworks := hundisturbed'.works (hundisturbed.works hworks)
  bare hbare := hundisturbed'.bare (hundisturbed.bare hbare)
  table t ht := (hundisturbed.table t ht).trans (hundisturbed'.table t ht)
  map u hu := (hundisturbed'.map u hu).trans (hundisturbed.map u hu)
  proxies a ha := hundisturbed'.proxies a (hundisturbed.proxies a ha)
  tags a := (hundisturbed'.tags a).trans (hundisturbed.tags a)

/-- Tables with tags, slots and maps of their own. -/
structure Memory.Apart (m m' : Memory) : Prop where
  tag : m.tag ≠ m'.tag
  table : m.table ≠ m'.table ∧ m.table ≠ m'.untagged
  map : m.untagged ≠ m'.table ∧ m.untagged ≠ m'.untagged

theorem Memory.Apart.symm (hapart : m.Apart m') : m'.Apart m :=
  ⟨hapart.tag.symm, ⟨hapart.table.1.symm, hapart.map.1.symm⟩, hapart.table.2.symm, hapart.map.2.symm⟩

namespace Orderly

/-- Whatever the functions of another table do, it does not disturb a table with its own tag. -/
theorem undisturbed_of_marks (horderly : Orderly m h slots) (hclear : ClearTag m'.tag) (haside : m'.Aside)
    (hapart : m.Apart m') (hmarks : Marks m' h h') : m.Undisturbed h h' where
  size := hmarks.size.ge
  foundations := Foundations.keeps (hmarks.keeps hclear haside)
  works := Memory.Works.keeps (hmarks.keeps hclear haside)
  bare := hmarks.bare haside
  table t ht := by
    obtain ⟨hslots, hmap⟩ := hapart.table
    rw [ht] at hslots hmap
    obtain ⟨helements, hkind⟩ := hmarks.others t hslots.symm
    exact ⟨hkind hmap.symm, (hmarks.object t).proto, (hmarks.object t).extensible, helements⟩
  map u hu := by
    obtain ⟨hslots, hmap⟩ := hapart.map
    rw [hu] at hslots hmap
    exact (hmarks.others u hslots.symm).2 hmap.symm
  proxies a ha := by rw [hmarks.isProxy, ha]
  tags a := by
    have hsteady : (Key.ofText m.tag).Steady (.ofText m'.tag) :=
      ⟨horderly.clear.name, Key.ofText_ne hapart.tag, horderly.clear.length, horderly.clear.overflow⟩
    rw [hmarks.own? hsteady]

/-- Nor does a property that the global object gets under another name. -/
theorem undisturbed_of_addProperty (horderly : Orderly m h slots) (hx : x ∉ vocabulary) (hne : m.tag ≠ x) (p : Property) :
    m.Undisturbed h (Realm.addProperty h Heap.global x p) := by
  have hkeeps := Realm.keeps_addProperty h p hx
  exact {
    size := (Realm.size_addProperty h _ x p).ge
    foundations := Foundations.keeps hkeeps
    works := Memory.Works.keeps hkeeps
    bare := fun hbare j => by
      rw [Realm.object_addProperty_of_ne h x p (by decide), Realm.object_addProperty_of_ne h x p (by decide)]
      exact hbare j
    table := fun t ht => by
      have hordinary := horderly.foundations.global
      refine .of_eq (Realm.object_addProperty_of_ne h x p ?_)
      rintro rfl
      rw [(horderly.arrayOf_table ht).kind] at hordinary
      cases hordinary
    map := fun u _ => (Realm.kind_addProperty h _ x p u).1
    proxies := fun a ha => by rw [Realm.isProxy_addProperty, ha]
    tags := fun a => by rw [Realm.own?_addProperty_of_ne h _ p (Key.ofText_ne hne)] }

end Orderly

/-- A table that is installed besides has slots and a map of its own, and its installation does not disturb a table whose
tag is none of its names. -/
theorem Installation.Finished.undisturbed (hnamed : i.Named) (horderly : Orderly m h slots)
    (hunused : (Key.ofText m.tag).Unused) (htag : m.tag ≠ i.tag) (htable : m.tag ≠ i.table)
    (hconverter : m.tag ≠ i.converter) (hfinished : Finished i m' root h h') : m.Undisturbed h h' ∧ m.Apart m' := by
  obtain ⟨hbuilt, hmarks, -, -, -, -⟩ := hfinished
  rename_i f h₀ h₁ p q
  obtain ⟨t, ht, -⟩ := horderly.table
  obtain ⟨u, entries, hu, hkind, -⟩ := horderly.map
  obtain ⟨t', ht', htyoung, -⟩ := hbuilt.table
  obtain ⟨u', hu', -, -⟩ := hbuilt.map
  have huyoung := hbuilt.young u' hu'
  have htmade := horderly.table_made ht
  have humade := Heap.lt_size_of_map hkind
  have hne {b b' : Address} (hb : b < h.objects.size) (hb' : h.objects.size ≤ b') : Value.object b ≠ .object b' :=
    fun heq => Nat.not_le_of_lt hb (Value.object.inj heq ▸ hb')
  have hapart : m.Apart m' := by
    refine ⟨hbuilt.tag ▸ htag, ?_, ?_⟩ <;> rw [ht', hu']
    · rw [ht]
      exact ⟨hne htmade htyoung, hne htmade huyoung⟩
    · rw [hu]
      exact ⟨hne humade htyoung, hne humade huyoung⟩
  have htableless : m.Apart m'.tableless := by
    refine ⟨hapart.tag, ⟨?_, hapart.table.2⟩, ?_, hapart.map.2⟩
    · rw [ht]
      exact nofun
    · rw [hu]
      exact nofun
  -- The table is made, the root is remembered, and the two names are given.
  have hmade := horderly.undisturbed_of_adds (hbuilt.extended (.ofText m.tag) hunused)
  have horderly₀ := horderly.undisturbed hmade
  have hclear : ClearTag m'.tableless.tag := hbuilt.clearTag hnamed
  have hremembered := horderly₀.undisturbed_of_marks hclear ⟨nofun, nofun⟩ htableless hmarks
  have horderly₁ := horderly₀.undisturbed hremembered
  have hnamed₁ := horderly₁.undisturbed_of_addProperty (Installation.Named.not_mem hnamed.table).1 htable p
  have hnamed₂ := (horderly₁.undisturbed hnamed₁).undisturbed_of_addProperty
    (Installation.Named.not_mem hnamed.converter).1 hconverter q
  exact ⟨((hmade.trans hremembered).trans hnamed₁).trans hnamed₂, hapart⟩

/-- Objects are registered with either of two tables, in any order and as often as one likes. -/
inductive Converter.Interleaving (invoke : Caller) (m m' : Memory) (h : Heap) : Heap → Prop
  | refl : Interleaving invoke m m' h h
  | tail {h' : Heap} {k : Memory} {a : Address} (earlier : Interleaving invoke m m' h h') (either : k = m ∨ k = m')
      (plain : h'.Plain a) (room : h'.objects.size + 1 < Key.indexBound) :
      Interleaving invoke m m' h (outcome (register invoke k (.object a)) h').2

namespace Converter

open Run (Within)

variable {invoke : Caller}

/-- What a registration does to the table that it is made with, and to a table besides. -/
private theorem outcome_register_beside (hinvoke : Within 2 invoke) (horderly : Orderly m h slots)
    (horderly' : Orderly m' h slots') (hapart : m.Apart m') (hplain : h.Plain a)
    (hroom : h.objects.size + 1 < Key.indexBound) : ∃ n h', outcome (register invoke m (.object a)) h = (.ok (.nat n), h') ∧
      (enlist slots a)[n]? = some (.object a) ∧ Orderly m h' (enlist slots a) ∧ Orderly m' h' slots' ∧
      ∀ b, h.Plain b → h'.Plain b := by
  have hlength : (enlist slots a).length < 2 ^ 32 := by
    have hslots := horderly.length_le_of_made horderly.made
    have henlist := length_enlist_le slots a
    have hbound : Key.indexBound = 2 ^ 32 - 1 := rfl
    omega
  obtain ⟨n, h', hrun, hslot, hdone, hintact⟩ := outcome_register_enlist hinvoke horderly hplain hlength
  have hmarks := (leaves_register hinvoke horderly.clear horderly.ready a).1
  rw [hrun] at hmarks
  have hundisturbed := horderly'.undisturbed_of_marks horderly.clear horderly.aside hapart.symm hmarks
  exact ⟨n, h', hrun, hslot, hdone, horderly'.undisturbed hundisturbed, fun b hb => hintact.plain hb⟩

/-- Both tables keep their slots. -/
theorem Interleaving.orderly (hinvoke : Within 2 invoke) (horderly : Orderly m h slots) (horderly' : Orderly m' h slots')
    (hapart : m.Apart m') (hrun : Interleaving invoke m m' h h') : ∃ all all', slots <+: all ∧ slots' <+: all' ∧
      Orderly m h' all ∧ Orderly m' h' all' ∧ ∀ b, h.Plain b → h'.Plain b := by
  induction hrun with
  | refl => exact ⟨slots, slots', List.prefix_rfl, List.prefix_rfl, horderly, horderly', fun _ => id⟩
  | @tail h₁ k a _ heither hplain hroom ih =>
    obtain ⟨all, all', hlonger, hlonger', hall, hall', hplains⟩ := ih
    rcases heither with rfl | rfl
    · obtain ⟨n, h₂, hregister, -, hdone, hbeside, hplains'⟩ :=
        outcome_register_beside hinvoke hall hall' hapart hplain hroom
      rw [hregister]
      exact ⟨_, _, hlonger.trans (prefix_enlist all a), hlonger', hdone, hbeside, fun b hb => hplains' b (hplains b hb)⟩
    · obtain ⟨n, h₂, hregister, -, hdone, hbeside, hplains'⟩ :=
        outcome_register_beside hinvoke hall' hall hapart.symm hplain hroom
      rw [hregister]
      exact ⟨_, _, hlonger, hlonger'.trans (prefix_enlist all' a), hbeside, hdone, fun b hb => hplains' b (hplains b hb)⟩

/-- Registering an object again gives the handle that it has, whatever has been registered with either table between. -/
theorem register_again (hinvoke : Within 2 invoke) (horderly : Orderly m h slots) (horderly' : Orderly m' h slots')
    (hapart : m.Apart m') (hplain : h.Plain a) (hroom : h.objects.size + 1 < Key.indexBound)
    (hfirst : outcome (register invoke m (.object a)) h = (.ok v, h')) (hbetween : Interleaving invoke m m' h' h'') :
    outcome (register invoke m (.object a)) h'' = (.ok v, h'') := by
  obtain ⟨n, h₁, hregister, hslot, hdone, hbeside, hplains⟩ :=
    outcome_register_beside hinvoke horderly horderly' hapart hplain hroom
  obtain ⟨hv, rfl⟩ := Prod.mk.inj (hregister.symm.trans hfirst)
  obtain rfl := Except.ok.inj hv
  obtain ⟨all, -, hlonger, -, hall, -, hplains'⟩ := hbetween.orderly hinvoke hdone hbeside hapart
  exact outcome_register_slot hinvoke hall (slot_of_longer hlonger hslot) (hplains' a (hplains a hplain)).proxy

end Converter
end ScriptBridge.Script
