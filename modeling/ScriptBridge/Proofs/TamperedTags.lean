import ScriptBridge.Proofs.OrderlyTables

/-! Tables whose tags are not to be relied on. Pages may remove the tags of objects, copy them and set them to any
number, and objects may carry the tags of other tables. A handle is given only where the slot holds the object, so a tag
that is wrong may cost the object another slot, but never gives it the slot of another one. -/
namespace ScriptBridge.Script

variable {α β : Type} {h h' h'' : Heap} {m : Memory} {a b c t : Address} {i n : Nat} {k l : Key} {v : Value} {x : Number}
  {slots slots' : List Value} {es fs : List (Address × Value)}

/-- Objects are as they were, but for what they have under one name. -/
structure Heap.AlikeBut (k : Key) (h h' : Heap) : Prop where
  size : h'.objects.size = h.objects.size
  alike : ∀ a, (h.object a).Alike (h'.object a)
  property : ∀ a l, l ≠ k → (h'.object a).property? l = (h.object a).property? l

namespace Heap.AlikeBut

theorem refl (k : Key) (h : Heap) : AlikeBut k h h := ⟨rfl, fun _ => .of_eq rfl, fun _ _ _ => rfl⟩

theorem setObject {o : Object} (halike : (h.object b).Alike o)
    (hproperty : ∀ l, l ≠ k → o.property? l = (h.object b).property? l) : AlikeBut k h (h.setObject b o) := by
  by_cases hb : b < h.objects.size
  · refine ⟨size_setObject h b o, fun a => ?_, fun a l hl => ?_⟩
    · by_cases hab : a = b
      · rw [hab, object_setObject_self o hb]
        exact halike
      · exact .of_eq (object_setObject_of_ne o hab)
    · by_cases hab : a = b
      · rw [hab, object_setObject_self o hb]
        exact hproperty l hl
      · rw [object_setObject_of_ne o hab]
  · rw [setObject_of_size_le o (Nat.le_of_not_lt hb)]
    exact refl k h

theorem define {y : Content} (hy : Key.name y ≠ .length) {d : Descriptor} (hd : d.value = some v) (h : Heap) (a : Address) :
    AlikeBut (.name y) h (h.define a (.name y) d).2 := by
  rcases Heap.define_name hy hd h a with hsame | ⟨p, hput, -⟩
  · rw [hsame]
    exact refl _ h
  · rw [hput]
    exact setObject ⟨rfl, rfl, rfl, rfl⟩ fun l hl => by rw [Object.property?_put, if_neg hl]

theorem delete (y : Content) (h : Heap) (a : Address) : AlikeBut (.name y) h (h.delete a (.name y)).2 := by
  rw [Heap.delete]
  split
  · exact refl _ h
  · split
    · exact setObject ⟨rfl, rfl, rfl, rfl⟩ fun l hl => (Object.property?_erase _ _ l).trans (if_neg hl)
    · exact refl _ h

theorem storage (halike : AlikeBut k h h') (a : Address) : h'.storage a = h.storage a :=
  storage_congr fun b _ => by rw [(halike.alike b).kind]

theorem stored (halike : AlikeBut k h h') (a : Address) : (h.stored a).Alike (h'.stored a) := by
  rw [Heap.stored, Heap.stored, halike.storage]
  exact halike.alike _

theorem own? (halike : AlikeBut k h h') (hl : l ≠ k) (a : Address) : h'.own? a l = h.own? a l := by
  have hproperty : (h'.stored a).property? l = (h.stored a).property? l := by
    rw [Heap.stored, Heap.stored, halike.storage, halike.property _ l hl]
  rw [Heap.own?, Heap.own?, (halike.stored a).kind, hproperty]

theorem keeps (halike : AlikeBut k h h') (hk : ∀ x ∈ vocabulary, Key.ofText x ≠ k) : h.Keeps h' where
  agrees x hx := ⟨halike.size.ge, fun a _ => (halike.stored a).proto, fun a _ => halike.own? (hk x hx) a⟩
  code f c hc := by rwa [code?, (halike.stored f).kind]
  maps u entries hkind := ⟨entries, (halike.alike u).kind.trans hkind⟩
  protos a _ _ := by
    rw [isProxy, isProxy, (halike.alike a).kind]
    exact ⟨rfl, (halike.alike a).proto, (halike.alike a).elements⟩
  global _ hkind := (halike.alike _).kind.trans hkind

end Heap.AlikeBut

/-- A property that is removed is not seen any more, and others are not seen instead. -/
theorem Heap.own?_delete {y : Content} {p : Property} (hy : Key.name y ≠ .length)
    (hp : (h.delete a (.name y)).2.own? b (.name y) = some p) : h.own? b (.name y) = some p := by
  rw [own?_of_ne_length hy, stored, (AlikeBut.delete y h a).storage b] at hp
  rw [own?_of_ne_length hy, stored]
  revert hp
  rw [delete]
  split
  · exact id
  · split
    · intro hp
      by_cases hb : h.storage b = h.storage a
      · by_cases hmade : h.storage a < h.objects.size
        · rw [hb, object_setObject_self _ hmade, Object.property?_erase, if_pos rfl] at hp
          cases hp
        · rwa [setObject_of_size_le _ (Nat.le_of_not_lt hmade)] at hp
      · rwa [object_setObject_of_ne _ hb] at hp
    · exact id

namespace Memory

/-- All tags are numbers. -/
def Numbered (m : Memory) (h : Heap) : Prop := ∀ a p, h.own? a (.ofText m.tag) = some p → ∃ x, p.value = .number x

/-- A page changes the tag of an object: it removes it, or makes some number of it. -/
inductive Tampers (m : Memory) (h : Heap) : Heap → Prop
  | removed (a : Address) : m.Tampers h (outcome (Run.delete (.object a) (.ofText m.tag)) h).2
  | assigned (a : Address) (x : Number) : m.Tampers h (outcome (Run.assign (.object a) (.ofText m.tag) (.number x)) h).2
  | defined (a : Address) {d : Descriptor} {x : Number} (value : d.value = some (.number x)) :
      m.Tampers h (outcome (Run.defineProperty a (.ofText m.tag) d) h).2

/-- Only tags are changed, and they are numbers as before. -/
theorem Tampers.alikeBut (hclear : ClearTag m.tag) (hnumbered : m.Numbered h) (htampers : m.Tampers h h') :
    h.AlikeBut (.ofText m.tag) h' ∧ m.Numbered h' := by
  obtain ⟨y, hy⟩ := hclear.name
  have hdefine (a : Address) {d : Descriptor} {x : Number} (hd : d.value = some (.number x)) :
      h.AlikeBut (.ofText m.tag) (h.define a (.ofText m.tag) d).2 ∧ m.Numbered (h.define a (.ofText m.tag) d).2 := by
    refine ⟨?_, fun b p hp => ?_⟩
    · rw [hy]
      exact .define (hy ▸ hclear.length) hd h a
    · rcases hclear.own?_define hd h a hp with hold | hnew
      · exact hnumbered b p hold
      · exact ⟨x, hnew⟩
  cases htampers with
  | removed a =>
    have hheap : (outcome (Run.delete (.object a) (.ofText m.tag)) h).2 = (h.delete a (.ofText m.tag)).2 := by
      rw [Run.delete, outcome_bind_ok (outcome_get h), outcome_bind_ok (outcome_set h _)]
      split <;> rfl
    rw [hheap, hy]
    refine ⟨.delete y h a, fun b p hp => ?_⟩
    rw [hy] at hp
    have hold := Heap.own?_delete (hy ▸ hclear.length) hp
    exact hnumbered b p (hy ▸ hold)
  | assigned a x =>
    rcases Run.heap_assign (a := a) (k := .ofText m.tag) (v := .number x) (fun _ _ => rfl) h with hsame | ⟨d, hd, hrun⟩
    · rw [hsame]
      exact ⟨.refl _ h, hnumbered⟩
    · rw [hrun]
      exact hdefine a hd
  | @defined a d x hd =>
    have hrun : outcome (Run.define a (.ofText m.tag) d) h =
      (.ok (h.define a (.ofText m.tag) d).1, (h.define a (.ofText m.tag) d).2) := rfl
    have hheap : (outcome (Run.defineProperty a (.ofText m.tag) d) h).2 = (h.define a (.ofText m.tag) d).2 := by
      rw [Run.defineProperty, outcome_bind_ok hrun]
      cases (h.define a (.ofText m.tag) d).1 <;> rfl
    rw [hheap]
    exact hdefine a hd

/-- No object is found in a table under a key, be it its own or one that arrays inherit. -/
def Silent (m : Memory) (h : Heap) (k : Key) : Prop :=
  ∀ b p, (m.table = .object b ∨ b = Heap.arrayProto ∨ b = Heap.objectProto) → h.own? b k = some p → ∀ a, p.value ≠ .object a

/-- What pages do that leave a table and its map alone: the language's own objects stay at work, arrays come to inherit
nothing under an index and no object under another name of a number, and tags are numbers. -/
structure Spares (m : Memory) (h h' : Heap) : Prop where
  size : h.objects.size ≤ h'.objects.size
  foundations : Foundations h → Foundations h'
  works : m.Works h → m.Works h'
  bare : Bare h → Bare h'
  silent : ∀ (x : Number) c, x.key = .name c → m.Silent h x.key → m.Silent h' x.key
  table : ∀ t, m.table = .object t → (h.object t).Alike (h'.object t)
  map : ∀ u, m.untagged = .object u → (h'.object u).kind = (h.object u).kind
  tags : m.Numbered h → m.Numbered h'

theorem Numbered.silent (hnumbered : m.Numbered h) : m.Silent h (.ofText m.tag) := by
  intro b p _ hp a ha
  obtain ⟨x, hx⟩ := hnumbered b p hp
  rw [hx] at ha
  cases ha

/-- The functions of a table write no tags but handles. -/
theorem Numbered.marks (hnumbered : m.Numbered h) (hmarks : Marks m h h') : m.Numbered h' := by
  intro b p hp
  rcases hmarks.tags b p hp with hold | ⟨n, -, hn⟩
  · exact hnumbered b p hold
  · exact ⟨_, hn⟩

/-- Tampering with a tag spares the table. -/
theorem Tampers.spares (hclear : ClearTag m.tag) (hnumbered : m.Numbered h) (htampers : m.Tampers h h') : m.Spares h h' := by
  obtain ⟨halike, hnumbered'⟩ := htampers.alikeBut hclear hnumbered
  have hkeeps := halike.keeps fun x hx => (hclear.vocabulary x hx).tag
  exact {
    size := halike.size.ge
    foundations := Foundations.keeps hkeeps
    works := Memory.Works.keeps hkeeps
    bare := fun hbare i => by
      rw [(halike.alike _).elements, (halike.alike _).elements]
      exact hbare i
    silent := fun x c _ hsilent => by
      by_cases hx : x.key = .ofText m.tag
      · rw [hx]
        exact hnumbered'.silent
      · intro b p hb hp
        exact hsilent b p hb ((halike.own? hx b).symm.trans hp)
    table := fun t _ => halike.alike t
    map := fun u _ => (halike.alike u).kind
    tags := fun _ => hnumbered' }

end Memory

theorem Heap.findWithin_cases {p : Property} (hp : h.findWithin k n a = some p) :
    h.own? a k = some p ∨ ∃ b i, (h.stored a).proto = some b ∧ h.findWithin k i b = some p := by
  cases n with
  | zero => cases hp
  | succ n =>
    rw [findWithin] at hp
    split at hp
    · rename_i hown
      exact .inl (hown.trans hp)
    · split at hp
      · rename_i b hproto
        exact .inr ⟨b, n, hproto, hp⟩
      · cases hp

/-- What is found in a table is its own, or one of the two objects has it that arrays inherit from. -/
theorem Slotted.own?_of_find? {p : Property} (hslotted : Slotted m h slots) (ht : m.table = .object t)
    (hp : h.find? t k = some p) :
    ∃ b, (m.table = .object b ∨ b = Heap.arrayProto ∨ b = Heap.objectProto) ∧ h.own? b k = some p := by
  obtain ⟨harray, hproto, -⟩ := hslotted.proto_table ht
  obtain ⟨harrayProxy, harrayProto, -⟩ := hslotted.foundations.library.arrayProto
  obtain ⟨hobjectProxy, hobjectProto, -⟩ := hslotted.foundations.library.objectProto
  have hstored {b : Address} (hb : h.isProxy b = false) : h.stored b = h.object b := by
    rw [Heap.stored, Heap.storage_of_not_isProxy hb]
  rcases Heap.findWithin_cases hp with hown | ⟨b, i, hb, hp⟩
  · exact ⟨t, .inl ht, hown⟩
  · rw [harray.stored, hproto] at hb
    obtain rfl := Option.some.inj hb
    rcases Heap.findWithin_cases hp with hown | ⟨b, i, hb, hp⟩
    · exact ⟨_, .inr (.inl rfl), hown⟩
    · rw [hstored harrayProxy, harrayProto] at hb
      obtain rfl := Option.some.inj hb
      rcases Heap.findWithin_cases hp with hown | ⟨b, i, hb, -⟩
      · exact ⟨_, .inr (.inr rfl), hown⟩
      · rw [hstored hobjectProxy, hobjectProto] at hb
        cases hb

/-- A table whose tags may say anything: they are numbers, and under a number that is no index no object is found in the
table. A full table may have taken an object under the name behind its last index. -/
structure Guarded (m : Memory) (h : Heap) (slots : List Value) : Prop extends Slotted m h slots where
  map : ∃ u, m.untagged = .object u ∧ IsHandleMap h u
  tags : m.Numbered h
  silent : ∀ (x : Number) c, x.key = .name c → (x.key = .overflow → slots.length < Key.indexBound) → m.Silent h x.key

/-- A handle for an object. It is a number, and while the table is not full it is written as the index of a slot that holds
the object. -/
def HandleFor (slots : List Value) (a : Address) (v : Value) : Prop :=
  ∃ x, v = .number x ∧ (slots.length < Key.indexBound → ∃ n, x.text = Text.decimal n ∧ slots[n]? = some (.object a))

theorem HandleFor.mono (hlonger : slots <+: slots') (hv : HandleFor slots a v) : HandleFor slots' a v := by
  obtain ⟨x, hx, hslot⟩ := hv
  refine ⟨x, hx, fun hroom => ?_⟩
  obtain ⟨n, htext, hn⟩ := hslot (hlonger.length_le.trans_lt hroom)
  exact ⟨n, htext, slot_of_longer hlonger hn⟩

namespace Guarded

/-- The test of a handle is not deceived: what it finds is a slot that holds the object. -/
theorem handleFor_of_get (hguarded : Guarded m h slots) (ht : m.table = .object t) (hget : h.get t x.key = .object a) :
    HandleFor slots a (.number x) := by
  refine ⟨x, rfl, fun hroom => ?_⟩
  rcases x.key_cases with ⟨n, hn, hkey, htext⟩ | ⟨c, hkey⟩
  · have hslot := hguarded.get_slot ht hn
    rw [show Key.ofNat n = .index n from if_pos hn, ← hkey, hget] at hslot
    refine ⟨n, htext, ?_⟩
    cases hfound : slots[n]? with
    | none =>
      rw [hfound] at hslot
      cases hslot
    | some w =>
      rw [hfound] at hslot
      exact congrArg some hslot.symm
  · exfalso
    cases hfind : h.find? t x.key with
    | some p =>
      obtain ⟨b, hb, hown⟩ := hguarded.own?_of_find? ht hfind
      rw [Heap.get_of_find? hfind] at hget
      exact hguarded.silent x c hkey (fun _ => hroom) b p hb hown a hget
    | none =>
      rw [Heap.get, hfind] at hget
      dsimp only at hget
      rw [if_neg (by simp [x.key_ne_proto])] at hget
      cases hget

/-- Pages that spare a table leave it guarded. -/
theorem spares (hguarded : Guarded m h slots) (hspares : m.Spares h h') : Guarded m h' slots where
  foundations := hspares.foundations hguarded.foundations
  works := hspares.works hguarded.works
  aside := hguarded.aside
  clear := hguarded.clear
  bare := hspares.bare hguarded.bare
  table := by
    obtain ⟨t, ht, harray, hproto, hextensible⟩ := hguarded.table
    obtain ⟨hkind, hproto', hextensible', helements⟩ := hspares.table t ht
    exact ⟨t, ht, ⟨hkind.trans harray.kind, by rw [helements]; exact harray.elements, harray.bound⟩,
      hproto'.trans hproto, hextensible'.trans hextensible⟩
  map := by
    obtain ⟨u, hu, hmade, entries, hkind, hentries⟩ := hguarded.map
    exact ⟨u, hu, hmade.trans_le hspares.size, entries, (hspares.map u hu).trans hkind, hentries⟩
  tags := hspares.tags hguarded.tags
  silent x c hx hroom := hspares.silent x c hx (hguarded.silent x c hx hroom)

/-- What the functions of a full table do leaves it guarded. -/
theorem full (hguarded : Guarded m h slots) (hmarks : Marks m h h') (hfull : Key.indexBound ≤ slots.length) :
    Guarded m h' slots where
  toSlotted := hguarded.toSlotted.full hmarks hfull
  map := by
    obtain ⟨u, hu, hmap⟩ := hguarded.map
    exact ⟨u, hu, hmarks.map u hu hmap⟩
  tags := hguarded.tags.marks hmarks
  silent x c hx hroom := by
    by_cases htag : x.key = .ofText m.tag
    · rw [htag]
      exact (hguarded.tags.marks hmarks).silent
    · have hsteady : x.key.Steady (.ofText m.tag) :=
        ⟨⟨c, hx⟩, htag, x.key_ne_length, fun hoverflow => Nat.not_lt_of_le hfull (hroom hoverflow)⟩
      exact fun b p hb hp => hguarded.silent x c hx hroom b p hb ((hmarks.own? hsteady b).symm.trans hp)

/-- A table that gives its next slot to an object stays guarded. -/
theorem append (hguarded : Guarded m h slots) (ht : m.table = .object t) (harray : h.isArray a = false)
    (hroom : slots.length < Key.indexBound) (hmarks : Marks m h h')
    (hentered : Entered m (.object a) slots.length (h.push t slots.length (.object a)) h') :
    Guarded m h' (slots ++ [.object a]) where
  toSlotted := hguarded.toSlotted.append ht harray hroom hmarks hentered
  map := by
    obtain ⟨u, hu, hmap⟩ := hguarded.map
    exact ⟨u, hu, hmarks.map u hu hmap⟩
  tags := hguarded.tags.marks hmarks
  silent x c hx _ := by
    by_cases htag : x.key = .ofText m.tag
    · rw [htag]
      exact (hguarded.tags.marks hmarks).silent
    · intro b p hb hp
      refine hguarded.silent x c hx (fun _ => hroom) b p hb ?_
      rw [Heap.own?_of_ne_length x.key_ne_length, Heap.stored, hmarks.storage, hentered.property _ _ htag, hx,
        Heap.push_property? t slots.length (.object a)] at hp
      rw [Heap.own?_of_ne_length x.key_ne_length, Heap.stored, hx, hp]

end Guarded

/-- What a registration does: slots stay as they are, what is given is a handle for the object, and one is given while the
table is not full. -/
structure Enrolled (m : Memory) (a : Address) (slots slots' : List Value) (h : Heap) (done : Except Thrown Value × Heap) :
    Prop where
  longer : slots <+: slots'
  guarded : Guarded m done.2 slots'
  marks : Marks m h done.2
  handle : ∀ v, done.1 = .ok v → HandleFor slots' a v
  answers : slots.length < Key.indexBound → ∃ v, done.1 = .ok v

namespace Converter

open Run (Within)

variable {invoke : Caller}

/-- A number is the answer where the table holds the object under it. -/
private theorem outcome_found_number (hguarded : Guarded m h slots) (invoke : Caller) (a : Address) (x : Number) :
    ∃ r, outcome (do if ← holds invoke m (.number x) (.object a) then return some (.number x) else return none) h = (.ok r, h) ∧
      (∀ v ∈ r, HandleFor slots a v) ∧
      ∀ n < Key.indexBound, x.text = Text.decimal n → slots[n]? = some (.object a) → r.isSome := by
  obtain ⟨t, ht, -⟩ := hguarded.table
  have hholds : outcome (holds invoke m (.number x) (.object a)) h = (.ok ((h.get t x.key).same (.object a)), h) := by
    rw [holds, Run.key_of_number, ht]
    rfl
  rw [outcome_bind_ok hholds]
  cases hsame : (h.get t x.key).same (.object a) with
  | true =>
    refine ⟨some (.number x), rfl, fun v hv => ?_, fun _ _ _ _ => rfl⟩
    obtain rfl := Option.some.inj hv
    exact hguarded.handleFor_of_get ht (Value.same_object.1 hsame)
  | false =>
    refine ⟨none, rfl, fun v hv => absurd hv (Option.not_mem_none v), fun n hn hx hslot => ?_⟩
    have hkey : x.key = .ofNat n := by rw [Number.key, hx, Key.ofChars_decimal]
    rw [hkey, hguarded.get_slot ht hn, hslot, Option.getD_some, Value.same_object.2 rfl] at hsame
    cases hsame

private theorem outcome_taggedHandle?_number (hinvoke : Within 2 invoke) (hguarded : Guarded m h slots) (a : Address) :
    ∃ r, outcome (taggedHandle? invoke m (.object a)) h = (.ok r, h) ∧ (∀ v ∈ r, HandleFor slots a v) ∧
      ∀ (p : Property) (n : Nat), n < Key.indexBound → h.own? a (.ofText m.tag) = some p → p.value.same (.nat n) = true →
        slots[n]? = some (.object a) → r.isSome := by
  rw [taggedHandle?, outcome_bind_ok (outcome_hasTag hinvoke hguarded.works a)]
  cases hown : h.own? a (.ofText m.tag) with
  | none =>
    refine ⟨none, rfl, fun v hv => absurd hv (Option.not_mem_none v), fun p n _ hp => ?_⟩
    cases hp
  | some p =>
    obtain ⟨x, hx⟩ := hguarded.tags a p hown
    have hread : outcome (readTag m (.object a)) h = (.ok (.number x), h) := by
      rw [outcome_readTag, Heap.get_of_find? (Heap.find?_of_own? hown), hx]
    rw [Option.isSome_some, if_pos rfl, outcome_bind_ok hread]
    obtain ⟨r, hr, hhandle, hfound⟩ := outcome_found_number hguarded invoke a x
    refine ⟨r, hr, hhandle, ?_⟩
    rintro _ n hn ⟨⟩ hsame
    rw [hx] at hsame
    exact hfound n hn (Number.text_of_same (hn.trans (by decide)) hsame)

private theorem outcome_knownHandle?_number (hinvoke : Within 2 invoke) (hguarded : Guarded m h slots) (a : Address) :
    ∃ r, outcome (knownHandle? invoke m (.object a)) h = (.ok r, h) ∧ (∀ v ∈ r, HandleFor slots a v) ∧
      ∀ n < Key.indexBound, m.known h (.object a) = .nat n → slots[n]? = some (.object a) → r.isSome := by
  rw [knownHandle?, outcome_bind_ok (outcome_mapGet (hinvoke.mono (by decide)) hguarded.works (.object a))]
  obtain ⟨u, hu, -, entries, hkind, hhandles⟩ := hguarded.map
  by_cases hundefined : m.known h (.object a) = .undefined
  · rw [if_pos hundefined]
    refine ⟨none, rfl, fun v hv => absurd hv (Option.not_mem_none v), fun n _ hn => ?_⟩
    rw [hundefined] at hn
    cases hn
  · obtain ⟨k, hk, hvalue⟩ := (Memory.known_cases hu hkind hhandles (.object a)).resolve_left hundefined
    rw [if_neg hundefined, hvalue]
    obtain ⟨r, hr, hhandle, hfound⟩ := outcome_found_number hguarded invoke a (.ofNat k)
    refine ⟨r, hr, hhandle, fun n hn hkn hslot => ?_⟩
    obtain rfl := Value.eq_of_nat hk (hn.trans (by decide)) hkn
    exact hfound k hn (Number.text_of_toDouble hk (Number.toDouble_ofNat k)) hslot

/-- An object is found by a handle for it; or it is appended, as none of its slots recalls it. -/
theorem register_cases (hinvoke : Within 2 invoke) (hguarded : Guarded m h slots) (a : Address) :
    (∃ v, outcome (register invoke m (.object a)) h = (.ok v, h) ∧ HandleFor slots a v) ∨
      (outcome (register invoke m (.object a)) h = outcome (append invoke m (.object a)) h ∧
        ∀ n < Key.indexBound, slots[n]? = some (.object a) → ¬m.Recalls h a n) := by
  obtain ⟨r, htagged, hhandle, hfound⟩ := outcome_taggedHandle?_number hinvoke hguarded a
  rw [register, outcome_bind_ok htagged]
  cases r with
  | some v => exact .inl ⟨v, rfl, hhandle v rfl⟩
  | none =>
    obtain ⟨r, hknown, hhandle, hfound'⟩ := outcome_knownHandle?_number hinvoke hguarded a
    dsimp only
    rw [outcome_bind_ok hknown]
    cases r with
    | some v => exact .inl ⟨v, rfl, hhandle v rfl⟩
    | none =>
      refine .inr ⟨rfl, fun n hn hslot => ?_⟩
      rintro (⟨p, hp, hsame⟩ | hvalue)
      · cases hfound p n hn hp hsame hslot
      · cases hfound' n hn hvalue hslot

/-- An object that is found neither by its tag nor in the map gets the next slot, while there is one. -/
private theorem enrolled_append (hinvoke : Within 2 invoke) (hguarded : Guarded m h slots) (harray : h.isArray a = false) :
    ∃ slots', Enrolled m a slots slots' h (outcome (append invoke m (.object a)) h) := by
  obtain ⟨t, ht, -⟩ := hguarded.table
  by_cases hroom : slots.length < Key.indexBound
  · obtain ⟨h', hrun, hmarks, hentered, -⟩ := outcome_append_slot hinvoke hguarded.toSlotted ht hroom a
    rw [hrun]
    refine ⟨_, List.prefix_append slots [.object a], hguarded.append ht harray hroom hmarks hentered, hmarks,
      fun v hv => ?_, fun _ => ⟨_, rfl⟩⟩
    obtain rfl := Except.ok.inj hv
    exact ⟨_, rfl, fun _ => ⟨slots.length,
      Number.text_of_toDouble (hroom.trans (by decide)) (Number.toDouble_ofNat _), List.getElem?_concat_length ..⟩⟩
  · obtain ⟨hmarks, hhandle⟩ := leaves_append hinvoke hguarded.clear hguarded.toServed ht (hguarded.isTable ht) a
    refine ⟨slots, List.prefix_rfl, hguarded.full hmarks (Nat.le_of_not_lt hroom), hmarks, fun v hv => ?_,
      fun hlt => absurd hlt hroom⟩
    obtain ⟨n, rfl, -⟩ := hhandle v hv
    exact ⟨_, rfl, fun hlt => absurd hlt hroom⟩

/-- However the tags were tampered with, an object is given a handle for a slot that holds it. -/
theorem enrolled_register (hinvoke : Within 2 invoke) (hguarded : Guarded m h slots) (harray : h.isArray a = false) :
    ∃ slots', Enrolled m a slots slots' h (outcome (register invoke m (.object a)) h) := by
  rcases register_cases hinvoke hguarded a with ⟨v, hrun, hhandle⟩ | ⟨hrun, -⟩
  · rw [hrun]
    exact ⟨slots, List.prefix_rfl, hguarded, .refl m h, fun w hw => Except.ok.inj hw ▸ hhandle, fun _ => ⟨v, rfl⟩⟩
  · rw [hrun]
    exact enrolled_append hinvoke hguarded harray

end Converter

/-- The object of a registration with the handle that is given for it, if one is. -/
def handed (a : Address) : Except Thrown Value → List (Address × Value)
  | .ok v => [(a, v)]
  | .error _ => []

namespace Memory

/-- One step after the installation of a table, with the handles that are given in it: an object is registered, a page
tampers with a tag, or it does something else that spares the table. -/
inductive Move (m : Memory) : Heap → List (Address × Value) → Heap → Prop
  | registered {h h' : Heap} {a : Address} {r : Except Thrown Value} {invoke : Caller} (within : Run.Within 2 invoke)
      (array : h.isArray a = false) (run : outcome (Converter.register invoke m (.object a)) h = (r, h')) :
      m.Move h (handed a r) h'
  | tampered {h h' : Heap} (tampers : m.Tampers h h') : m.Move h [] h'
  | spared {h h' : Heap} (spares : m.Spares h h') : m.Move h [] h'

/-- A run of such steps, with all handles that are given in it. -/
inductive Course (m : Memory) (h : Heap) : List (Address × Value) → Heap → Prop
  | refl : m.Course h [] h
  | move {es fs : List (Address × Value)} {h' h'' : Heap} (course : m.Course h es h') (move : m.Move h' fs h'') :
      m.Course h (es ++ fs) h''

theorem Course.trans (hcourse : m.Course h es h') (hcourse' : m.Course h' fs h'') : m.Course h (es ++ fs) h'' := by
  induction hcourse' with
  | refl => rwa [List.append_nil]
  | move _ hmove ih =>
    rw [← List.append_assoc]
    exact ih.move hmove

/-- A step leaves a table guarded and its slots as they are, and what is given in it are handles for their objects. -/
theorem Move.guarded (hmove : m.Move h es h') (hguarded : Guarded m h slots) :
    ∃ slots', slots <+: slots' ∧ Guarded m h' slots' ∧ ∀ e ∈ es, HandleFor slots' e.1 e.2 := by
  cases hmove with
  | @registered _ a r _ hinvoke harray hrun =>
    obtain ⟨slots', henrolled⟩ := Converter.enrolled_register hinvoke hguarded harray
    rw [hrun] at henrolled
    refine ⟨slots', henrolled.longer, henrolled.guarded, fun e he => ?_⟩
    cases r with
    | error => cases he
    | ok v =>
      obtain rfl := List.mem_singleton.1 he
      exact henrolled.handle v rfl
  | tampered htampers =>
    exact ⟨slots, List.prefix_rfl, hguarded.spares (htampers.spares hguarded.clear hguarded.tags), nofun⟩
  | spared hspares => exact ⟨slots, List.prefix_rfl, hguarded.spares hspares, nofun⟩

/-- So does a run: what was given at any time is a handle for its object still. -/
theorem Course.guarded (hcourse : m.Course h es h') (hguarded : Guarded m h slots) :
    ∃ slots', slots <+: slots' ∧ Guarded m h' slots' ∧ ∀ e ∈ es, HandleFor slots' e.1 e.2 := by
  induction hcourse with
  | refl => exact ⟨slots, List.prefix_rfl, hguarded, nofun⟩
  | move _ hmove ih =>
    obtain ⟨slots₁, hlonger₁, hguarded₁, hhandles₁⟩ := ih
    obtain ⟨slots₂, hlonger₂, hguarded₂, hhandles₂⟩ := hmove.guarded hguarded₁
    refine ⟨slots₂, hlonger₁.trans hlonger₂, hguarded₂, fun e he => ?_⟩
    rcases List.mem_append.1 he with he | he
    · exact (hhandles₁ e he).mono hlonger₂
    · exact hhandles₂ e he

end Memory

end ScriptBridge.Script
