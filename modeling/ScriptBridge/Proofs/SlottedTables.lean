import ScriptBridge.Proofs.Layouts
import ScriptBridge.Proofs.Remembering

/-! Tables with their slots, whatever the tags say. A value is appended while there is an index left for it; the slots
that are there stay, and those of a full table are all that there are. -/
namespace ScriptBridge.Script

variable {h h' : Heap} {m : Memory} {a t : Address} {n : Nat} {v : Value} {slots : List Value}

namespace Heap

theorem isArray_of_kind {w : Bool} (hkind : (h.object a).kind = .array n w) : h.isArray a = true := by
  rw [isArray, stored, storage_of_not_isProxy (by rw [isProxy, hkind]), hkind]

theorem kind_of_isArray (hproxy : h.isProxy a = false) (harray : h.isArray a = true) :
    ∃ n w, (h.object a).kind = .array n w := by
  rw [isArray, stored, storage_of_not_isProxy hproxy] at harray
  split at harray
  · exact ⟨_, _, ‹_›⟩
  · cases harray

/-- An array takes a value behind its last one. -/
def push (h : Heap) (t : Address) (n : Nat) (v : Value) : Heap :=
  h.setObject t { h.object t with kind := .array (n + 1) true, elements := (h.object t).elements.insert n (.plain v) }

theorem push_of_ne (hat : a ≠ t) : (h.push t n v).object a = h.object a := object_setObject_of_ne _ hat

theorem push_own? {k : Key} (hkind : ∃ n w, (h.object t).kind = .array n w) (hk : k ≠ .length)
    (hname : ∃ x, k = .name x) (a : Address) : (h.push t n v).own? a k = h.own? a k := by
  obtain ⟨x, rfl⟩ := hname
  obtain ⟨i, w, hkind⟩ := hkind
  exact own?_setObject (o := { h.object t with
    kind := .array (n + 1) true
    elements := (h.object t).elements.insert n (.plain v) }) hk (by rw [hkind]; rfl) rfl a

theorem push_property? {x : Content} (t : Address) (n : Nat) (v : Value) (a : Address) :
    ((h.push t n v).object a).property? (.name x) = (h.object a).property? (.name x) := by
  by_cases hat : a = t
  · subst hat
    by_cases hmade : a < h.objects.size
    · rw [push, object_setObject_self _ hmade]
      rfl
    · rw [push, setObject_of_size_le _ (Nat.le_of_not_lt hmade)]
  · rw [push_of_ne hat]

theorem push_proxy? (hkind : ∃ n w, (h.object t).kind = .array n w) (a : Address) :
    ((h.push t n v).object a).kind.proxy? = (h.object a).kind.proxy? := by
  obtain ⟨i, w, hkind⟩ := hkind
  by_cases hat : a = t
  · subst hat
    rw [push, object_setObject_self _ (lt_size_of_array hkind), hkind]
    rfl
  · rw [push_of_ne hat]

theorem push_isProxy (hkind : ∃ n w, (h.object t).kind = .array n w) (a : Address) :
    (h.push t n v).isProxy a = h.isProxy a := by
  rw [isProxy_eq, isProxy_eq, push_proxy? hkind]

theorem push_storage (hkind : ∃ n w, (h.object t).kind = .array n w) (a : Address) :
    (h.push t n v).storage a = h.storage a :=
  storage_congr fun b _ => push_proxy? hkind b

theorem arrayOf_push (htmade : t < h.objects.size) (harray : ArrayOf h t slots) (hroom : slots.length < Key.indexBound)
    (v : Value) : ArrayOf (h.push t slots.length v) t (slots ++ [v]) := by
  have hself : (h.push t slots.length v).object t = _ := object_setObject_self _ htmade
  refine ⟨by rw [hself, List.length_append]; rfl, by rw [hself]; exact harray.elements.insert v, ?_⟩
  rw [List.length_append]
  exact Nat.succ_lt_succ hroom

end Heap

/-- The slots of a table are those of a list. -/
structure Slotted (m : Memory) (h : Heap) (slots : List Value) : Prop extends Served m h where
  clear : ClearTag m.tag
  bare : Bare h
  table : ∃ t, m.table = .object t ∧ ArrayOf h t slots ∧ (h.object t).proto = some Heap.arrayProto ∧
    (h.object t).extensible = true

namespace Slotted

theorem proto_table (hslotted : Slotted m h slots) (ht : m.table = .object t) :
    ArrayOf h t slots ∧ (h.object t).proto = some Heap.arrayProto ∧ (h.object t).extensible = true := by
  obtain ⟨t', ht', htable⟩ := hslotted.table
  obtain rfl : t' = t := Value.object.inj (ht'.symm.trans ht)
  exact htable

theorem arrayOf_table (hslotted : Slotted m h slots) (ht : m.table = .object t) : ArrayOf h t slots :=
  (hslotted.proto_table ht).1

theorem table_made (hslotted : Slotted m h slots) (ht : m.table = .object t) : t < h.objects.size :=
  Heap.lt_size_of_array (hslotted.arrayOf_table ht).kind

theorem isTable (hslotted : Slotted m h slots) (ht : m.table = .object t) : IsTable h t := by
  obtain ⟨harray, hproto, -⟩ := hslotted.proto_table ht
  refine ⟨hslotted.table_made ht, hproto, _, _, harray.kind, harray.bound, fun i p hp => ?_⟩
  have hi := harray.elements i
  rw [hp] at hi
  by_contra hlength
  rw [List.getElem?_eq_none (Nat.le_of_not_lt hlength)] at hi
  cases hi

/-- What a slot holds is found under its index. -/
theorem get_slot (hslotted : Slotted m h slots) (ht : m.table = .object t) (hn : n < Key.indexBound) :
    h.get t (.ofNat n) = slots[n]?.getD .undefined := by
  obtain ⟨harray, hproto, -⟩ := hslotted.proto_table ht
  have hproxy : h.isProxy t = false := by rw [Heap.isProxy, harray.kind]
  rw [show Key.ofNat n = .index n from if_pos hn, Heap.get,
    hslotted.bare.find?_index hslotted.foundations.library hproxy hproto, harray.elements]
  cases slots[n]? with
  | some w => rfl
  | none => exact if_neg (by simp [Key.proto])

/-- The map is no array. -/
theorem untagged_ne (hslotted : Slotted m h slots) (hproxy : h.isProxy a = false) (harray : h.isArray a = true) :
    m.untagged ≠ .object a := by
  intro ha
  obtain ⟨u, entries, hu, hkind, -⟩ := hslotted.works.untagged
  obtain rfl : u = a := Value.object.inj (hu.symm.trans ha)
  obtain ⟨n, w, hkind'⟩ := Heap.kind_of_isArray hproxy harray
  rw [hkind] at hkind'
  cases hkind'

/-- A value that is appended gets the next slot, and the others stay. -/
theorem append (hslotted : Slotted m h slots) (ht : m.table = .object t) (harray : h.isArray a = false)
    (hroom : slots.length < Key.indexBound) (hmarks : Marks m h h')
    (hentered : Entered m (.object a) slots.length (h.push t slots.length (.object a)) h') :
    Slotted m h' (slots ++ [.object a]) where
  toServed := hslotted.toServed.marks hmarks hslotted.clear
  clear := hslotted.clear
  bare := hmarks.bare hslotted.aside hslotted.bare
  table := by
    obtain ⟨htable, hproto, hextensible⟩ := hslotted.proto_table ht
    have hproxy : h.isProxy t = false := by rw [Heap.isProxy, htable.kind]
    refine ⟨t, ht, ?_, (hmarks.object t).proto.trans hproto, (hmarks.object t).extensible.trans hextensible⟩
    refine (Heap.arrayOf_push (hslotted.table_made ht) htable hroom (.object a)).of_object_eq
      (hentered.object t (fun b hb => ?_) (hslotted.untagged_ne hproxy htable.isArray))
    rw [← Value.object.inj hb, Heap.push_storage ⟨_, _, htable.kind⟩]
    rintro rfl
    rw [Heap.isArray, Heap.stored, htable.kind] at harray
    cases harray

/-- A full table keeps its slots whatever its functions do. -/
theorem full (hslotted : Slotted m h slots) (hmarks : Marks m h h') (hfull : Key.indexBound ≤ slots.length) :
    Slotted m h' slots where
  toServed := hslotted.toServed.marks hmarks hslotted.clear
  clear := hslotted.clear
  bare := hmarks.bare hslotted.aside hslotted.bare
  table := by
    obtain ⟨t, ht, harray, hproto, hextensible⟩ := hslotted.table
    obtain ⟨-, -, n, w, hkind, hn, hbelow⟩ := hmarks.table t ht (hslotted.isTable ht)
    have hkept := (hmarks.object t).kind
    rw [harray.kind, hkind] at hkept
    obtain ⟨k, hk, hkind'⟩ := hkept.of_array
    obtain ⟨rfl, rfl⟩ := Kind.array.inj hkind'
    obtain rfl : n = slots.length := hk.antisymm' (Nat.le_of_lt_succ (hn.trans_le (Nat.succ_le_succ hfull)))
    refine ⟨t, ht, ⟨hkind, fun i => ?_, harray.bound⟩, (hmarks.object t).proto.trans hproto,
      (hmarks.object t).extensible.trans hextensible⟩
    by_cases hi : i < slots.length
    · have hslot := harray.elements i
      rw [List.getElem?_eq_getElem hi, Option.map_some] at hslot ⊢
      exact (hmarks.object t).element i _ hslot
    · rw [List.getElem?_eq_none (Nat.le_of_not_lt hi), Option.map_none]
      cases helement : (h'.object t).elements[i]? with
      | none => rfl
      | some p => exact absurd (hbelow i p helement) hi

end Slotted

namespace Converter

open Run (Within)

variable {invoke : Caller}

/-- The element behind the last one is put into an array that can take it. -/
theorem outcome_assign_slot (hslotted : Slotted m h slots) (ht : m.table = .object t) (hroom : slots.length < Key.indexBound)
    (v : Value) : outcome (Run.assign (.object t) (.ofNat slots.length) v) h = (.ok (), h.push t slots.length v) := by
  obtain ⟨harray, hproto, hextensible⟩ := hslotted.proto_table ht
  have hproxy : h.isProxy t = false := by rw [Heap.isProxy, harray.kind]
  have hnone : (h.object t).elements[slots.length]? = none := by
    rw [harray.elements, List.getElem?_eq_none le_rfl]
    rfl
  have hfind : h.find? t (.index slots.length) = none := by
    rw [hslotted.bare.find?_index hslotted.foundations.library hproxy hproto, hnone]
  have hown : h.own? t (.index slots.length) = none := by rw [Heap.own?_index hproxy, hnone]
  have hdefine : (h.object t).define (.index slots.length) (.ofProperty (.plain v)) = (.accepted,
      { h.object t with
        kind := .array (slots.length + 1) true
        elements := (h.object t).elements.insert slots.length (.plain v) }) := by
    have hproperty : (h.object t).property? (.index slots.length) = none := hnone
    unfold Object.define
    rw [hproperty, harray.kind]
    dsimp only
    rw [if_neg (by simp [hextensible]), if_neg (Nat.lt_irrefl _), if_pos rfl]
    rfl
  have hrun : outcome (Run.define t (.index slots.length) (.ofProperty (.plain v))) h =
      (.ok .accepted, h.push t slots.length v) := by
    rw [Run.outcome_define, Heap.define_index harray.kind, hdefine]
    rfl
  rw [show Key.ofNat slots.length = .index slots.length from if_pos hroom, Run.assign, outcome_bind_ok (outcome_get h), hfind]
  dsimp only
  rw [if_neg (by simp [Key.proto]), Run.assignOwn, outcome_bind_ok (outcome_get h), hown, if_neg (by simp),
    outcome_bind_ok hrun]
  rfl

/-- An object is appended to a table with room for it, and remembered. -/
theorem outcome_append_slot (hinvoke : Within 2 invoke) (hslotted : Slotted m h slots) (ht : m.table = .object t)
    (hroom : slots.length < Key.indexBound) (a : Address) : ∃ h',
    outcome (append invoke m (.object a)) h = (.ok (.nat slots.length), h') ∧ Marks m h h' ∧
      Entered m (.object a) slots.length (h.push t slots.length (.object a)) h' ∧
      Remembered m a slots.length (h.push t slots.length (.object a)) h' := by
  have harray := hslotted.arrayOf_table ht
  have hclear := hslotted.clear
  have hlength : outcome (Run.read m.table .length) h = (.ok (.nat slots.length), h) := by
    rw [ht, Run.outcome_read_object, harray.get_length]
  have hkey : Run.key invoke (.nat slots.length) = pure (.ofNat slots.length) :=
    Run.key_number harray.bound (Number.toDouble_ofNat _)
  have hassign : outcome (Run.assign m.table (.ofNat slots.length) (.object a)) h =
      (.ok (), h.push t slots.length (.object a)) := by
    rw [ht]
    exact outcome_assign_slot hslotted ht hroom (.object a)
  have hmarks := (leaves_assign hclear ht (hslotted.isTable ht) harray.kind a).1
  rw [hassign] at hmarks
  obtain ⟨h', hremember, hmarks', hentered, hremembered⟩ :=
    outcome_remember hinvoke hclear (hslotted.toServed.marks hmarks hclear) harray.bound (.object a)
  rw [append, outcome_bind_ok hlength, hkey, pure_bind, outcome_bind_ok hassign, outcome_bind_ok hremember]
  exact ⟨h', rfl, hmarks.trans hmarks', hentered, hremembered a rfl⟩

end Converter
end ScriptBridge.Script
