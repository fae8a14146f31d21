import ScriptBridge.Proofs.Installing
import ScriptBridge.Proofs.SlottedTables

/-! Tables in order. No object has two slots, and an object that has one is recalled by it. Such a table finds an object
again in its slot, and gives the next slot to an object that has none. -/
namespace ScriptBridge.Script

variable {h h' h'' : Heap} {m : Memory} {a b t u : Address} {n : Nat} {v w : Value} {slots : List Value}

/-- An object that is neither a proxy nor an array. -/
structure Heap.Plain (h : Heap) (a : Address) : Prop where
  made : a < h.objects.size
  proxy : h.isProxy a = false
  array : h.isArray a = false

/-- A handle that names a slot of an array. -/
def NamesSlot (v : Value) : Prop := ∃ n < Key.indexBound, v = .nat n

theorem NamesSlot.isHandle (hv : NamesSlot v) : IsHandle v := by
  obtain ⟨n, hn, rfl⟩ := hv
  exact ⟨n, hn.trans (by decide), rfl⟩

/-- A table is in order. Each object has one of its slots at most, and is recalled by it but for proxies, whose tags are
those of their targets. -/
structure Orderly (m : Memory) (h : Heap) (slots : List Value) : Prop extends Slotted m h slots where
  map : ∃ u entries, m.untagged = .object u ∧ (h.object u).kind = .map entries ∧ ∀ e ∈ entries, NamesSlot e.2
  tags : ∀ a p, h.own? a (.ofText m.tag) = some p → NamesSlot p.value
  rooted : slots ≠ []
  distinct : slots.Nodup
  made : ∀ v ∈ slots.tail, ∃ a < h.objects.size, v = .object a
  recalls : ∀ (n : Nat) a, slots[n]? = some (.object a) → h.isProxy a = false → m.Recalls h a n

/-- The slots of a table once an object has one. -/
def enlist (slots : List Value) (a : Address) : List Value :=
  if .object a ∈ slots then slots else slots ++ [.object a]

theorem length_enlist_le (slots : List Value) (a : Address) : (enlist slots a).length ≤ slots.length + 1 := by
  rw [enlist]
  split
  · exact Nat.le_succ _
  · rw [List.length_append, List.length_singleton]

theorem prefix_enlist (slots : List Value) (a : Address) : slots <+: enlist slots a := by
  rw [enlist]
  split
  · exact List.prefix_rfl
  · exact List.prefix_append slots _

theorem slot_of_longer {all : List Value} (hlonger : slots <+: all) (hn : slots[n]? = some v) : all[n]? = some v := by
  obtain ⟨rest, rfl⟩ := hlonger
  rw [List.getElem?_append_left (List.getElem?_eq_some_iff.1 hn).1, hn]

/-- Objects stay of their kind. But for some, they have the elements that they had and inherit from what they did, and
arrays are as they were. -/
structure Heap.Intact (changed : Address → Prop) (h h' : Heap) : Prop where
  size : h.objects.size ≤ h'.objects.size
  kind : ∀ a < h.objects.size, (h.object a).kind.Kept (h'.object a).kind
  inherits : ∀ a < h.objects.size, ¬changed a → (h'.object a).elements = (h.object a).elements ∧
    (h'.object a).proto = (h.object a).proto
  arrays : ∀ a < h.objects.size, ¬changed a → h.isArray a = true → h.isProxy a = false → h'.object a = h.object a

theorem Value.same_object : v.same (.object a) = true ↔ v = .object a := by
  cases v <;> simp [same]

theorem Value.eq_of_same_nat {m n : Nat} (hm : m < 2 ^ 32) (hn : n < 2 ^ 32) (hsame : (nat m).same (nat n) = true) :
    m = n :=
  Number.eq_of_same_ofNat (hm.trans (by decide)) (hn.trans (by decide)) hsame

theorem Value.eq_of_nat {m n : Nat} (hm : m < 2 ^ 32) (hn : n < 2 ^ 32) (heq : nat m = nat n) : m = n := by
  refine Double.ofNat_injective (hm.trans (by decide)) (hn.trans (by decide)) ?_
  rw [← Number.toDouble_ofNat m, ← Number.toDouble_ofNat n, Value.number.inj heq]

namespace Heap

namespace Intact

variable {changed : Address → Prop}

theorem refl (changed : Address → Prop) (h : Heap) : Intact changed h h :=
  ⟨le_rfl, fun _ _ => .same _, fun _ _ _ => ⟨rfl, rfl⟩, fun _ _ _ _ _ => rfl⟩

theorem isProxy (hintact : Intact changed h h') (ha : a < h.objects.size) : h'.isProxy a = h.isProxy a := by
  rw [isProxy_eq, isProxy_eq, (hintact.kind a ha).proxy?]

theorem isArray (hintact : Intact changed h h') (ha : a < h.objects.size) (hproxy : h.isProxy a = false) :
    h'.isArray a = h.isArray a := by
  have hkind := hintact.kind a ha
  rw [Heap.isArray, Heap.isArray, stored, stored, storage_of_not_isProxy hproxy,
    storage_of_not_isProxy ((hintact.isProxy ha).trans hproxy)]
  generalize (h.object a).kind = k at hkind ⊢
  generalize (h'.object a).kind = k' at hkind ⊢
  cases hkind <;> rfl

theorem plain (hintact : Intact changed h h') (hplain : h.Plain a) : h'.Plain a :=
  ⟨hplain.made.trans_le hintact.size, (hintact.isProxy hplain.made).trans hplain.proxy,
    (hintact.isArray hplain.made hplain.proxy).trans hplain.array⟩

/-- Steps that change other objects are put together where they change no others of the first heap. -/
theorem trans {changed' : Address → Prop} (hintact : Intact changed h h') (hintact' : Intact changed' h' h'')
    (hsub : ∀ a < h.objects.size, changed' a → changed a) : Intact changed h h'' where
  size := hintact.size.trans hintact'.size
  kind a ha := (hintact.kind a ha).trans (hintact'.kind a (ha.trans_le hintact.size))
  inherits a ha hne := by
    have hfirst := hintact.inherits a ha hne
    have hsecond := hintact'.inherits a (ha.trans_le hintact.size) fun hc => hne (hsub a ha hc)
    exact ⟨hsecond.1.trans hfirst.1, hsecond.2.trans hfirst.2⟩
  arrays a ha hne harray hproxy := by
    have hlater := hintact'.arrays a (ha.trans_le hintact.size) (fun hc => hne (hsub a ha hc))
      ((hintact.isArray ha hproxy).trans harray) ((hintact.isProxy ha).trans hproxy)
    exact hlater.trans (hintact.arrays a ha hne harray hproxy)

theorem mono {changed' : Address → Prop} (hsub : ∀ a < h.objects.size, changed a → changed' a)
    (hintact : Intact changed h h') : Intact changed' h h' :=
  ⟨hintact.size, hintact.kind, fun a ha hne => hintact.inherits a ha fun hc => hne (hsub a ha hc),
    fun a ha hne => hintact.arrays a ha fun hc => hne (hsub a ha hc)⟩

theorem of_grown (changed : Address → Prop) (hgrown : h.Grown h') : Intact changed h h' :=
  ⟨hgrown.size, fun a ha => by rw [hgrown.object a ha]; exact .same _,
    fun a ha _ => by rw [hgrown.object a ha]; exact ⟨rfl, rfl⟩, fun a ha _ _ _ => hgrown.object a ha⟩

end Intact

end Heap

namespace Orderly

theorem ready (horderly : Orderly m h slots) : Ready m h where
  toServed := horderly.toServed
  bare := horderly.bare
  table := by
    obtain ⟨t, ht, -⟩ := horderly.table
    exact ⟨t, ht, horderly.isTable ht⟩
  map := by
    obtain ⟨u, entries, hu, hkind, hentries⟩ := horderly.map
    exact ⟨u, hu, Heap.lt_size_of_map hkind, entries, hkind, fun e he => (hentries e he).isHandle⟩
  tags a p hp := (horderly.tags a p hp).isHandle

theorem lt_of_slot (horderly : Orderly m h slots) (hn : slots[n]? = some v) : n < 2 ^ 32 := by
  obtain ⟨t, -, harray, -⟩ := horderly.table
  exact (List.getElem?_eq_some_iff.1 hn).1.trans harray.bound

theorem slot_unique {k : Nat} (horderly : Orderly m h slots) (hk : slots[k]? = some v) (hn : slots[n]? = some v) :
    k = n := by
  obtain ⟨hlt, hkv⟩ := List.getElem?_eq_some_iff.1 hk
  obtain ⟨hlt', hnv⟩ := List.getElem?_eq_some_iff.1 hn
  exact (horderly.distinct.getElem_inj_iff).1 (hkv.trans hnv.symm)

/-- There are at most as many slots as objects that can be in them, and one for the root. -/
theorem length_le_of_made {bound : Nat} (horderly : Orderly m h slots)
    (hmade : ∀ v ∈ slots.tail, ∃ a < bound, v = .object a) : slots.length ≤ bound + 1 := by
  have hsub : slots.tail ⊆ (List.range bound).map .object := by
    intro v hv
    obtain ⟨a, ha, rfl⟩ := hmade v hv
    exact List.mem_map_of_mem (List.mem_range.2 ha)
  have hlength := (List.subperm_of_subset horderly.distinct.tail hsub).length_le
  rw [List.length_tail, List.length_map, List.length_range] at hlength
  exact Nat.sub_le_iff_le_add.1 hlength

/-- There is room for one more slot, if there are fewer objects than indices. -/
theorem length_enlist_lt {bound : Nat} (horderly : Orderly m h slots)
    (hmade : ∀ v ∈ slots.tail, ∃ a < bound, v = .object a) (hroom : bound + 1 < Key.indexBound) (a : Address) :
    (enlist slots a).length < 2 ^ 32 := by
  have hslots := horderly.length_le_of_made hmade
  have henlist := length_enlist_le slots a
  have hbound : Key.indexBound = 2 ^ 32 - 1 := rfl
  omega

/-- Objects with slots are recalled by them still, and the new one by its own. -/
private theorem recalls_append (horderly : Orderly m h slots) (ht : m.table = .object t) (hplain : h.Plain a)
    (hnew : .object a ∉ slots) (hmarks : Marks m h h')
    (hremembered : Remembered m a slots.length (h.push t slots.length (.object a)) h')
    (hb : (slots ++ [.object a])[n]? = some (.object b)) (hproxy : h'.isProxy b = false) : m.Recalls h' b n := by
  have harray := horderly.arrayOf_table ht
  have htu : m.untagged ≠ .object t := horderly.untagged_ne (by rw [Heap.isProxy, harray.kind]) harray.isArray
  have hpushed (b : Address) : (h.push t slots.length (.object a)).isProxy b = h.isProxy b :=
    Heap.push_isProxy ⟨_, _, harray.kind⟩ b
  by_cases hn : n < slots.length
  · rw [List.getElem?_append_left hn] at hb
    have hba : b ≠ a := by
      rintro rfl
      exact hnew (List.mem_of_getElem? hb)
    rw [hmarks.isProxy] at hproxy
    have hstorage : (h.push t slots.length (.object a)).storage b ≠ (h.push t slots.length (.object a)).storage a := by
      rwa [Heap.storage_of_not_isProxy ((hpushed b).trans hproxy),
        Heap.storage_of_not_isProxy ((hpushed a).trans hplain.proxy)]
    rcases horderly.recalls n b hb hproxy with ⟨p, hp, hsame⟩ | hknown
    · have hown := Heap.push_own? (n := slots.length) (v := .object a) ⟨_, _, harray.kind⟩ horderly.clear.length
        horderly.clear.name b
      exact .inl ⟨p, by rw [hremembered.tags b hstorage, hown, hp], hsame⟩
    · refine .inr ?_
      rw [hremembered.known b hba, Memory.known_congr (fun u hu => ?_), hknown]
      rw [Heap.push_of_ne fun heq => htu (hu.trans (congrArg Value.object heq))]
  · obtain rfl : n = slots.length := by
      have hlength := (List.getElem?_eq_some_iff.1 hb).1
      rw [List.length_append] at hlength
      exact Nat.le_antisymm (Nat.le_of_lt_succ hlength) (Nat.le_of_not_lt hn)
    rw [List.getElem?_concat_length] at hb
    obtain rfl := Value.object.inj (Option.some.inj hb)
    exact hremembered.recalls

/-- The table stays in order when an object gets the slot at its end and is recalled by it. -/
theorem append (horderly : Orderly m h slots) (ht : m.table = .object t) (hplain : h.Plain a)
    (hnew : .object a ∉ slots) (hroom : slots.length < Key.indexBound) (hmarks : Marks m h h')
    (hentered : Entered m (.object a) slots.length (h.push t slots.length (.object a)) h')
    (hremembered : Remembered m a slots.length (h.push t slots.length (.object a)) h') :
    Orderly m h' (slots ++ [.object a]) := by
  have harray := horderly.arrayOf_table ht
  obtain ⟨u, entries, hu, hkind, hentries⟩ := horderly.map
  have htu : m.untagged ≠ .object t := horderly.untagged_ne (by rw [Heap.isProxy, harray.kind]) harray.isArray
  have hut : u ≠ t := fun heq => htu (heq ▸ hu)
  have hown (b : Address) : (h.push t slots.length (.object a)).own? b (.ofText m.tag) = h.own? b (.ofText m.tag) :=
    Heap.push_own? ⟨_, _, harray.kind⟩ horderly.clear.length horderly.clear.name b
  exact {
    toSlotted := horderly.toSlotted.append ht hplain.array hroom hmarks hentered
    map := by
      obtain ⟨entries', hkind', hentries'⟩ :=
        hentered.map u entries hu (by rw [Heap.push_of_ne hut, hkind])
      refine ⟨u, entries', hu, hkind', fun e he => ?_⟩
      rcases hentries' e he with hold | hhandle
      · exact hentries e hold
      · exact ⟨_, hroom, hhandle⟩
    tags := by
      intro b p hp
      rcases hentered.tags b p hp with hold | hhandle
      · exact horderly.tags b p (by rw [← hown, hold])
      · exact ⟨_, hroom, hhandle⟩
    rooted := by simp
    distinct := by
      rw [List.nodup_append]
      refine ⟨horderly.distinct, List.nodup_singleton _, ?_⟩
      rintro v hv w hw rfl
      obtain rfl := List.mem_singleton.1 hw
      exact hnew hv
    made := by
      intro v hv
      rw [hmarks.size]
      rw [List.tail_append_of_ne_nil horderly.rooted] at hv
      rcases List.mem_append.1 hv with hv | hv
      · exact horderly.made v hv
      · exact ⟨a, hplain.made, List.mem_singleton.1 hv⟩
    recalls := fun n b => horderly.recalls_append ht hplain hnew hmarks hremembered }

/-- Arrays other than the table are as they were. -/
theorem intact_append (horderly : Orderly m h slots) (ht : m.table = .object t) (hplain : h.Plain a)
    (hmarks : Marks m h h') (hentered : Entered m (.object a) slots.length (h.push t slots.length (.object a)) h') :
    h.Intact (m.table = .object ·) h' where
  size := hmarks.size.ge
  kind b _ := (hmarks.object b).kind
  inherits b _ hb := ⟨(hmarks.others b hb).1, (hmarks.object b).proto⟩
  arrays b _ hb harray hproxy := by
    have hbt : b ≠ t := fun heq => hb (heq ▸ ht)
    have hpushed : (h.push t slots.length (.object a)).isProxy a = false :=
      (Heap.push_isProxy ⟨_, _, (horderly.arrayOf_table ht).kind⟩ a).trans hplain.proxy
    refine (hentered.object_of_ne hpushed ?_ (horderly.untagged_ne hproxy harray)).trans (Heap.push_of_ne hbt)
    rintro rfl
    rw [hplain.array] at harray
    cases harray

end Orderly

namespace Converter

open Run (Within)

variable {invoke : Caller}

/-- A handle is good for an object when its slot holds it. -/
theorem outcome_holds_slot (horderly : Orderly m h slots) (hn : n < Key.indexBound) (invoke : Caller) (a : Address) :
    outcome (holds invoke m (.nat n) (.object a)) h = (.ok (decide (slots[n]? = some (.object a))), h) := by
  obtain ⟨t, ht, -⟩ := horderly.table
  have hsame : (slots[n]?.getD .undefined).same (.object a) = decide (slots[n]? = some (.object a)) := by
    rw [Bool.eq_iff_iff, Value.same_object, decide_eq_true_eq]
    cases slots[n]? <;> simp
  rw [Value.nat, outcome_holds ht (hn.trans (by decide)) (Number.toDouble_ofNat n), horderly.get_slot ht hn, hsame]

/-- An answer that names the slot of an object, if any. -/
private def Sound (slots : List Value) (a : Address) (r : Option Value) : Prop :=
  ∀ v ∈ r, ∃ n : Nat, v = .nat n ∧ slots[n]? = some (.object a)

private theorem sound_none (slots : List Value) (a : Address) : Sound slots a none := by
  intro v hv
  cases hv

/-- A handle is the answer when its slot holds the object. -/
private theorem outcome_found (horderly : Orderly m h slots) (hn : n < Key.indexBound) (invoke : Caller) (a : Address) :
    ∃ r, outcome (do if ← holds invoke m (.nat n) (.object a) then return some (.nat n) else return none) h = (.ok r, h) ∧
      Sound slots a r ∧ (slots[n]? = some (.object a) → r.isSome) := by
  rw [outcome_bind_ok (outcome_holds_slot horderly hn invoke a)]
  by_cases hslot : slots[n]? = some (.object a)
  · rw [decide_eq_true hslot, if_pos rfl]
    exact ⟨_, rfl, fun v hv => ⟨n, (Option.some.inj hv).symm, hslot⟩, fun _ => rfl⟩
  · rw [decide_eq_false hslot, if_neg Bool.false_ne_true]
    exact ⟨_, rfl, sound_none slots a, fun h => absurd h hslot⟩

private theorem outcome_taggedHandle? (hinvoke : Within 2 invoke) (horderly : Orderly m h slots) (a : Address) :
    ∃ r, outcome (taggedHandle? invoke m (.object a)) h = (.ok r, h) ∧ Sound slots a r ∧
      ∀ (p : Property) (n : Nat), h.own? a (.ofText m.tag) = some p → p.value.same (.nat n) = true →
        slots[n]? = some (.object a) → r.isSome := by
  rw [taggedHandle?, outcome_bind_ok (outcome_hasTag hinvoke horderly.works a)]
  cases hown : h.own? a (.ofText m.tag) with
  | none =>
    refine ⟨none, rfl, sound_none slots a, ?_⟩
    rintro p n ⟨⟩
  | some p =>
    obtain ⟨k, hk, hp⟩ := horderly.tags a p hown
    have hread : outcome (readTag m (.object a)) h = (.ok (.nat k), h) := by
      rw [outcome_readTag, Heap.get_of_find? (Heap.find?_of_own? hown), hp]
    obtain ⟨r, hr, hsound, hfound⟩ := outcome_found horderly hk invoke a
    rw [Option.isSome_some, if_pos rfl, outcome_bind_ok hread]
    refine ⟨r, hr, hsound, ?_⟩
    rintro _ n ⟨⟩ hsame hn
    rw [hp] at hsame
    rw [← Value.eq_of_same_nat (hk.trans (by decide)) (horderly.lt_of_slot hn) hsame] at hn
    exact hfound hn

private theorem outcome_knownHandle? (hinvoke : Within 2 invoke) (horderly : Orderly m h slots) (a : Address) :
    ∃ r, outcome (knownHandle? invoke m (.object a)) h = (.ok r, h) ∧ Sound slots a r ∧
      ∀ n : Nat, m.known h (.object a) = .nat n → slots[n]? = some (.object a) → r.isSome := by
  rw [knownHandle?, outcome_bind_ok (outcome_mapGet (hinvoke.mono (by decide)) horderly.works (.object a))]
  obtain ⟨u, entries, hu, hkind, hentries⟩ := horderly.map
  have hknown := Memory.known_cases hu hkind hentries (.object a)
  by_cases hundefined : m.known h (.object a) = .undefined
  · rw [if_pos hundefined]
    refine ⟨none, rfl, sound_none slots a, fun n hn => ?_⟩
    rw [hundefined] at hn
    cases hn
  · obtain ⟨k, hk, hvalue⟩ := hknown.resolve_left hundefined
    obtain ⟨r, hr, hsound, hfound⟩ := outcome_found horderly hk invoke a
    rw [if_neg hundefined, hvalue]
    refine ⟨r, hr, hsound, fun n hn hslot => ?_⟩
    have hkn : k < 2 ^ 32 := hk.trans (by decide)
    rw [← Value.eq_of_nat hkn (horderly.lt_of_slot hslot) hn] at hslot
    exact hfound hslot

/-- An object that has a slot is found in it. -/
theorem outcome_register_slot (hinvoke : Within 2 invoke) (horderly : Orderly m h slots) (hslot : slots[n]? = some (.object a))
    (hproxy : h.isProxy a = false) : outcome (register invoke m (.object a)) h = (.ok (.nat n), h) := by
  obtain ⟨r, htagged, hsound, hfound⟩ := outcome_taggedHandle? hinvoke horderly a
  obtain ⟨r', hknown, hsound', hfound'⟩ := outcome_knownHandle? hinvoke horderly a
  have heq {r : Option Value} (hsound : Sound slots a r) (hsome : r.isSome) : r = some (.nat n) := by
    obtain ⟨v, rfl⟩ := Option.isSome_iff_exists.1 hsome
    obtain ⟨k, rfl, hk⟩ := hsound v rfl
    rw [horderly.slot_unique hk hslot]
  rw [register, outcome_bind_ok htagged]
  cases hr : r with
  | some v =>
    obtain rfl := Option.some.inj (hr ▸ heq hsound (by rw [hr]; rfl))
    rfl
  | none =>
    rcases horderly.recalls n a hslot hproxy with ⟨p, hp, hsame⟩ | hvalue
    · have hsome := hfound p n hp hsame hslot
      rw [hr] at hsome
      cases hsome
    · rw [outcome_bind_ok hknown, heq hsound' (hfound' n hvalue hslot)]
      rfl

/-- An object that has no slot is given one. -/
theorem outcome_register_append (hinvoke : Within 2 invoke) (horderly : Orderly m h slots) (hnew : .object a ∉ slots) :
    outcome (register invoke m (.object a)) h = outcome (append invoke m (.object a)) h := by
  have hnone {r : Option Value} (hsound : Sound slots a r) : r = none := by
    refine Option.eq_none_iff_forall_not_mem.2 fun v hv => ?_
    obtain ⟨k, -, hk⟩ := hsound v hv
    exact hnew (List.mem_of_getElem? hk)
  obtain ⟨r, htagged, hsound, -⟩ := outcome_taggedHandle? hinvoke horderly a
  obtain ⟨r', hknown, hsound', -⟩ := outcome_knownHandle? hinvoke horderly a
  rw [hnone hsound] at htagged
  rw [hnone hsound'] at hknown
  rw [register, outcome_bind_ok htagged]
  exact outcome_bind_ok hknown

/-- An object that has no slot gets the next one, and is recalled by it. -/
theorem outcome_append (hinvoke : Within 2 invoke) (horderly : Orderly m h slots) (hplain : h.Plain a)
    (hnew : .object a ∉ slots) (hroom : slots.length < Key.indexBound) : ∃ h',
    outcome (append invoke m (.object a)) h = (.ok (.nat slots.length), h') ∧ Orderly m h' (slots ++ [.object a]) ∧
      h.Intact (m.table = .object ·) h' := by
  obtain ⟨t, ht, -⟩ := horderly.table
  obtain ⟨h', hrun, hmarks, hentered, hremembered⟩ := outcome_append_slot hinvoke horderly.toSlotted ht hroom a
  exact ⟨h', hrun, horderly.append ht hplain hnew hroom hmarks hentered hremembered,
    horderly.intact_append ht hplain hmarks hentered⟩

/-- The slot of an object is found or made. -/
theorem outcome_register_enlist (hinvoke : Within 2 invoke) (horderly : Orderly m h slots) (hplain : h.Plain a)
    (hroom : (enlist slots a).length < 2 ^ 32) : ∃ n h', outcome (register invoke m (.object a)) h = (.ok (.nat n), h') ∧
      (enlist slots a)[n]? = some (.object a) ∧ Orderly m h' (enlist slots a) ∧ h.Intact (m.table = .object ·) h' := by
  by_cases hmem : .object a ∈ slots
  · obtain ⟨n, hn⟩ := List.getElem?_of_mem hmem
    rw [enlist, if_pos hmem]
    exact ⟨n, h, outcome_register_slot hinvoke horderly hn hplain.proxy, hn, horderly, .refl _ h⟩
  · rw [enlist, if_neg hmem] at hroom ⊢
    rw [List.length_append] at hroom
    obtain ⟨h', happend, horderly', hintact⟩ := outcome_append hinvoke horderly hplain hmem (Nat.lt_of_succ_lt_succ hroom)
    refine ⟨slots.length, h', ?_, List.getElem?_concat_length .., horderly', hintact⟩
    rw [outcome_register_append hinvoke horderly hmem, happend]

/-- The token of an object names its slot. -/
theorem outcome_token_enlist (hinvoke : Within 2 invoke) (horderly : Orderly m h slots) (hplain : h.Plain a)
    (hroom : (enlist slots a).length < 2 ^ 32) : ∃ n h', outcome (token invoke m (.object a)) h =
        (.ok (.text (m.scheme ++ String.ofList (Text.decimal n))), h') ∧
      (enlist slots a)[n]? = some (.object a) ∧ Orderly m h' (enlist slots a) ∧ h.Intact (m.table = .object ·) h' := by
  obtain ⟨n, h', hregister, hslot, horderly', hintact⟩ := outcome_register_enlist hinvoke horderly hplain hroom
  refine ⟨n, h', ?_, hslot, horderly', hintact⟩
  have htext : (Number.ofNat n).text = Text.decimal n :=
    Number.text_of_toDouble (horderly'.lt_of_slot hslot) (Number.toDouble_ofNat n)
  rw [token, outcome_bind_ok hregister, Value.nat, outcome_sum, htext]
  rfl

end Converter

/-- An object that has the same in all but its names. -/
structure Object.Alike (o o' : Object) : Prop where
  kind : o'.kind = o.kind
  proto : o'.proto = o.proto
  extensible : o'.extensible = o.extensible
  elements : o'.elements = o.elements

theorem Object.Alike.of_eq {o o' : Object} (heq : o' = o) : Alike o o' := by
  rw [heq]
  exact ⟨rfl, rfl, rfl, rfl⟩

/-- What is done besides calls of the functions of a table: the language's own objects stay at work, and what is in the
table, in the map and under the tags stays as it is. -/
structure Memory.Undisturbed (m : Memory) (h h' : Heap) : Prop where
  size : h.objects.size ≤ h'.objects.size
  foundations : Foundations h → Foundations h'
  works : m.Works h → m.Works h'
  bare : Bare h → Bare h'
  table : ∀ t, m.table = .object t → (h.object t).Alike (h'.object t)
  map : ∀ u, m.untagged = .object u → (h'.object u).kind = (h.object u).kind
  proxies : ∀ a, h.isProxy a = true → h'.isProxy a = true
  tags : ∀ a, (h'.own? a (.ofText m.tag)).map Property.value = (h.own? a (.ofText m.tag)).map Property.value

namespace Orderly

/-- A table stays in order while it is not touched. -/
theorem undisturbed (horderly : Orderly m h slots) (hundisturbed : m.Undisturbed h h') : Orderly m h' slots where
  foundations := hundisturbed.foundations horderly.foundations
  works := hundisturbed.works horderly.works
  aside := horderly.aside
  clear := horderly.clear
  bare := hundisturbed.bare horderly.bare
  table := by
    obtain ⟨t, ht, harray, hproto, hextensible⟩ := horderly.table
    obtain ⟨hkind, hproto', hextensible', helements⟩ := hundisturbed.table t ht
    exact ⟨t, ht, ⟨by rw [hkind, harray.kind], by rw [helements]; exact harray.elements, harray.bound⟩,
      hproto'.trans hproto, hextensible'.trans hextensible⟩
  map := by
    obtain ⟨u, entries, hu, hkind, hentries⟩ := horderly.map
    exact ⟨u, entries, hu, by rw [hundisturbed.map u hu, hkind], hentries⟩
  tags a p hp := by
    have htag := hundisturbed.tags a
    rw [hp, eq_comm, Option.map_some, Option.map_eq_some_iff] at htag
    obtain ⟨q, hq, hvalue⟩ := htag
    exact hvalue ▸ horderly.tags a q hq
  rooted := horderly.rooted
  distinct := horderly.distinct
  made v hv := by
    obtain ⟨a, ha, rfl⟩ := horderly.made v hv
    exact ⟨a, ha.trans_le hundisturbed.size, rfl⟩
  recalls n a ha hproxy := by
    have hproxy : h.isProxy a = false := by
      by_contra hproxy'
      rw [hundisturbed.proxies a (by simpa using hproxy')] at hproxy
      cases hproxy
    rcases horderly.recalls n a ha hproxy with ⟨p, hp, hsame⟩ | hknown
    · have htag := hundisturbed.tags a
      rw [hp, Option.map_some, Option.map_eq_some_iff] at htag
      obtain ⟨q, hq, hvalue⟩ := htag
      exact .inl ⟨q, hq, hvalue ▸ hsame⟩
    · exact .inr ((Memory.known_congr hundisturbed.map _).trans hknown)

end Orderly

/-- New objects without tags do not touch a table. -/
theorem Slotted.undisturbed_of_adds (hslotted : Slotted m h slots) (hadds : Heap.Adds (.ofText m.tag) h h') :
    m.Undisturbed h h' where
  size := hadds.size
  foundations := Foundations.keeps hadds.toGrown.keeps
  works := Memory.Works.keeps hadds.toGrown.keeps
  bare hbare i := by
    have hmade := hslotted.foundations.library.arrayProto_made
    rw [hadds.object _ hmade, hadds.object _ (Nat.lt_trans (by decide) hmade)]
    exact hbare i
  table t ht := .of_eq (hadds.object t (hslotted.table_made ht))
  map u hu := by
    obtain ⟨u', entries, hu', hkind, -⟩ := hslotted.works.untagged
    obtain rfl : u' = u := Value.object.inj (hu'.symm.trans hu)
    rw [hadds.object u' (Heap.lt_size_of_map hkind)]
  proxies a hproxy := by
    have ha : a < h.objects.size := by
      by_contra ha
      rw [Heap.isProxy, Heap.object_of_size_le (Nat.le_of_not_lt ha)] at hproxy
      cases hproxy
    rw [Heap.isProxy, hadds.object a ha]
    exact hproxy
  tags a := by
    by_cases ha : a < h.objects.size
    · rw [hadds.toGrown.own? ha]
    · rw [Heap.own?_of_size_le (Nat.le_of_not_lt ha)]
      cases hown : h'.own? a (.ofText m.tag) with
      | none => rfl
      | some p =>
        have hold := hadds.old a p hown
        rw [Heap.own?_of_size_le (Nat.le_of_not_lt ha)] at hold
        cases hold

namespace Installation.Finished

variable {i : Installation} {root : Value}

/-- A new table has the root in its only slot, where arrays inherit nothing under an index. -/
theorem slotted (hnamed : i.Named) (hfoundations : Foundations h) (hbare : Bare h) (hfinished : Finished i m root h h') :
    Slotted m h' [root] := by
  have hplaced := hfinished.placed hnamed hfoundations
  have haside := hfinished.aside hfoundations
  have hbare' := hfinished.bare hfoundations hbare
  obtain ⟨t, ht, -, harray, hproto⟩ := hplaced.table
  obtain ⟨hbuilt, hmarks, -, -, hp, hq⟩ := hfinished
  exact {
    foundations := hplaced.foundations
    works := hplaced.works
    aside := haside
    clear := hbuilt.clearTag hnamed
    bare := hbare'
    table := by
      refine ⟨t, ht, harray, hproto, ?_⟩
      rw [(Realm.kind_addProperty _ _ _ _ t).2.2, (Realm.kind_addProperty _ _ _ _ t).2.2, (hmarks.object t).extensible]
      exact hbuilt.room t ht }

/-- A new table is in order, where arrays inherit nothing under an index and all tags are handles of slots. -/
theorem orderly (hnamed : i.Named) (hfoundations : Foundations h) (hbare : Bare h)
    (htags : ∀ a p, h.own? a (.ofText i.tag) = some p → NamesSlot p.value)
    (hunused : (Key.ofText i.tag).Unused) (htable : i.tag ≠ i.table) (hconverter : i.tag ≠ i.converter)
    (hfinished : Finished i m root h h') : Orderly m h' [root] := by
  have hzero : NamesSlot (.nat 0) := ⟨0, by decide, rfl⟩
  exact {
    toSlotted := hfinished.slotted hnamed hfoundations hbare
    map := by
      obtain ⟨hbuilt, -, hentered, -, -, -⟩ := hfinished
      obtain ⟨u, hu, -, hkind⟩ := hbuilt.map
      obtain ⟨entries, hkind', hentries⟩ := hentered.map u [] hu hkind
      refine ⟨u, entries, hu, ?_, fun e he => ?_⟩
      · rw [(Realm.kind_addProperty _ _ _ _ u).1, (Realm.kind_addProperty _ _ _ _ u).1, hkind']
      · rw [(hentries e he).resolve_left List.not_mem_nil]
        exact hzero
    tags := by
      intro a r hr
      rcases hfinished.tags hunused htable hconverter hr with hold | hhandle
      · exact htags a r hold
      · rw [hhandle]
        exact hzero
    rooted := List.cons_ne_nil root []
    distinct := List.nodup_singleton root
    made := nofun
    recalls := by
      intro n a ha _
      obtain ⟨rfl, hroot⟩ : n = 0 ∧ root = .object a := by
        cases n with
        | zero => exact ⟨rfl, Option.some.inj ha⟩
        | succ n => cases ha
      exact hfinished.recalls htable hconverter hroot }

end Installation.Finished
end ScriptBridge.Script
