import Mathlib.Order.Nat
import Mathlib.Tactic.ByContra
import ScriptBridge.Script.Heap

/-! Look-ups in heaps. What is found stays found while the objects on the way to it agree, and in particular when
objects are only added. -/
namespace ScriptBridge.Script

/-- What a proxy stands for, and how it takes definitions. -/
def Kind.proxy? : Kind → Option (Address × Trap)
  | .proxy t trap => some (t, trap)
  | _ => none

namespace Object

private theorem find?_putInto (k l : Key) (p : Property) (names : List (Key × Property)) :
    ((putInto k p names).find? fun q => q.1 = l).map Prod.snd =
      if l = k then some p else (names.find? fun q => q.1 = l).map Prod.snd := by
  induction names with
  | nil =>
    by_cases hkl : l = k
    · simp [putInto, hkl]
    · simp [putInto, hkl, Ne.symm hkl]
  | cons q rest ih =>
    obtain ⟨j, q⟩ := q
    rw [putInto]
    by_cases hjk : j = k
    · subst hjk
      by_cases hlj : l = j
      · simp [hlj]
      · simp [hlj, Ne.symm hlj]
    · rw [if_neg hjk]
      by_cases hlj : j = l
      · subst hlj
        simp [hjk]
      · simpa [hlj] using ih

theorem property?_put (o : Object) (k l : Key) (p : Property) :
    (o.put k p).property? l = if l = k then some p else o.property? l := by
  cases k with
  | index n =>
    cases l with
    | index i =>
      by_cases hin : n = i
      · simp [put, property?, hin]
      · simp [put, property?, Std.TreeMap.getElem?_insert, hin, Ne.symm hin]
    | _ => rfl
  | name x =>
    cases l with
    | index i => rfl
    | _ => exact find?_putInto _ _ p o.names
  | symbol d =>
    cases l with
    | index i => rfl
    | _ => exact find?_putInto _ _ p o.names

theorem mem_names_of_property? {o : Object} {x : Content} {p : Property} (hp : o.property? (.name x) = some p) :
    (.name x, p) ∈ o.names := by
  obtain ⟨q, hq, rfl⟩ := Option.map_eq_some_iff.1 (show (o.names.find? fun q => q.1 = .name x).map Prod.snd = some p from hp)
  have hkey : q.1 = .name x := by simpa using List.find?_some hq
  exact hkey ▸ List.mem_of_find?_eq_some hq

private theorem find?_erased (k l : Key) (names : List (Key × Property)) :
    ((names.filter fun q => q.1 ≠ k).find? fun q => q.1 = l).map Prod.snd =
      if l = k then none else (names.find? fun q => q.1 = l).map Prod.snd := by
  rw [List.find?_filter]
  by_cases hkl : l = k
  · subst hkl
    simp
  · rw [if_neg hkl]
    congr 2
    funext q
    by_cases hq : q.1 = l
    · simp [hq, hkl]
    · simp [hq]

theorem property?_erase (o : Object) (k l : Key) :
    (o.erase k).property? l = if l = k then none else o.property? l := by
  cases k with
  | index n =>
    cases l with
    | index i => simp [erase, property?, Std.TreeMap.getElem?_erase, eq_comm (a := n)]
    | _ => rfl
  | name x =>
    cases l with
    | index i => rfl
    | _ => exact find?_erased _ _ o.names
  | symbol d =>
    cases l with
    | index i => rfl
    | _ => exact find?_erased _ _ o.names

end Object

namespace Heap

variable {h h' h'' : Heap} {a : Address} {k : Key} {p : Property}

theorem object_of_size_le (ha : h.objects.size ≤ a) : h.object a = {} := by
  simp [object, Array.getElem?_eq_none ha]

theorem lt_size_of_kind (hkind : (h.object a).kind ≠ .ordinary) : a < h.objects.size := by
  by_contra hsize
  rw [object_of_size_le (Nat.le_of_not_lt hsize)] at hkind
  exact hkind rfl

theorem lt_size_of_map {entries : List (Value × Value)} (hkind : (h.object a).kind = .map entries) :
    a < h.objects.size := lt_size_of_kind (by rw [hkind]; nofun)

theorem lt_size_of_array {n : Nat} {w : Bool} (hkind : (h.object a).kind = .array n w) : a < h.objects.size :=
  lt_size_of_kind (by rw [hkind]; nofun)

@[simp] theorem size_alloc (h : Heap) (o : Object) : (h.alloc o).1.objects.size = h.objects.size + 1 := by
  simp [alloc]

@[simp] theorem size_setObject (h : Heap) (a : Address) (o : Object) :
    (h.setObject a o).objects.size = h.objects.size := by
  simp [setObject]

theorem object_alloc_self (h : Heap) (o : Object) : (h.alloc o).1.object h.objects.size = o := by
  simp [alloc, object]

theorem object_alloc_of_lt (o : Object) (ha : a < h.objects.size) : (h.alloc o).1.object a = h.object a := by
  simp [alloc, object, Array.getElem?_push, Nat.ne_of_lt ha]

theorem object_setObject_self (o : Object) (ha : a < h.objects.size) : (h.setObject a o).object a = o := by
  simp [setObject, object, ha]

theorem object_setObject_of_ne {b : Address} (o : Object) (hb : b ≠ a) : (h.setObject a o).object b = h.object b := by
  simp [setObject, object, hb.symm]

theorem setObject_of_size_le (o : Object) (ha : h.objects.size ≤ a) : h.setObject a o = h := by
  simp [setObject, Array.setIfInBounds_eq_of_size_le ha]

theorem setObject_object (h : Heap) (a : Address) : h.setObject a (h.object a) = h := by
  by_cases ha : a < h.objects.size
  · simp [setObject, object, ha, Array.setIfInBounds_def]
  · exact setObject_of_size_le _ (Nat.le_of_not_lt ha)

theorem storage_of_not_isProxy (hp : h.isProxy a = false) : h.storage a = a := by
  unfold isProxy at hp
  unfold storage
  split <;> simp_all

theorem isProxy_eq (h : Heap) (a : Address) : h.isProxy a = (h.object a).kind.proxy?.isSome := by
  unfold isProxy
  cases (h.object a).kind <;> rfl

private theorem storage_eq (h : Heap) (a : Address) :
    h.storage a = ((h.object a).kind.proxy?.filter (·.1 < a)).elim a fun p => h.storage p.1 := by
  conv_lhs => unfold storage
  cases (h.object a).kind with
  | proxy t trap => by_cases ht : t < a <;> simp [Kind.proxy?, Option.filter, ht]
  | _ => rfl

theorem storage_proxy {t : Address} {trap : Trap} (hkind : (h.object a).kind = .proxy t trap) (ht : t < a) :
    h.storage a = h.storage t := by
  rw [storage_eq, hkind]
  simp [Kind.proxy?, Option.filter, ht]

/-- The way through proxies is the same where the proxies on it stand for the same objects. -/
theorem storage_congr (hproxy : ∀ b ≤ a, (h'.object b).kind.proxy? = (h.object b).kind.proxy?) :
    h'.storage a = h.storage a := by
  induction a using Nat.strongRecOn with
  | ind a ih =>
    rw [storage_eq h' a, storage_eq h a, hproxy a le_rfl]
    cases ht : (h.object a).kind.proxy?.filter (·.1 < a) with
    | none => rfl
    | some p =>
      have hlt : p.1 < a := of_decide_eq_true (Option.filter_eq_some_iff.1 ht).2
      exact ih p.1 hlt fun b hb => hproxy b (hb.trans hlt.le)

/-- The object behind proxies is no younger than they are. -/
theorem storage_le (h : Heap) (a : Address) : h.storage a ≤ a := by
  induction a using Nat.strongRecOn with
  | ind a ih =>
    unfold storage
    split
    · rename_i t trap hkind
      split
      · rename_i ht
        exact (ih t ht).trans ht.le
      · exact le_rfl
    · exact le_rfl

theorem stored_of_size_le (ha : h.objects.size ≤ a) : h.stored a = {} := by
  have hself : h.storage a = a := storage_of_not_isProxy (by simp [isProxy, object_of_size_le ha])
  rw [stored, hself, object_of_size_le ha]

theorem own?_of_size_le (ha : h.objects.size ≤ a) (k : Key) : h.own? a k = none := by
  rw [own?, stored_of_size_le ha]
  cases k <;> simp [Object.property?]

theorem own?_of_ne_length (hk : k ≠ .length) (h : Heap) (a : Address) : h.own? a k = (h.stored a).property? k := by
  rw [own?]
  cases (h.stored a).kind <;> simp [hk]

/-- What objects have under a key is the same when one is exchanged for another with the same under the key. -/
theorem own?_setObject {b : Address} {o : Object} (hk : k ≠ .length)
    (hproxy : o.kind.proxy? = (h.object b).kind.proxy?) (hproperty : o.property? k = (h.object b).property? k)
    (a : Address) : (h.setObject b o).own? a k = h.own? a k := by
  have hobject (c : Address) : (h.setObject b o).object c = h.object c ∨
      c = b ∧ (h.setObject b o).object c = o := by
    by_cases hcb : c = b
    · subst hcb
      by_cases hc : c < h.objects.size
      · exact .inr ⟨rfl, object_setObject_self o hc⟩
      · exact .inl (by rw [setObject_of_size_le o (Nat.le_of_not_lt hc)])
    · exact .inl (object_setObject_of_ne o hcb)
  have hstorage : (h.setObject b o).storage a = h.storage a := storage_congr fun c _ => by
    rcases hobject c with heq | ⟨rfl, heq⟩
    · rw [heq]
    · rw [heq, hproxy]
  rw [own?_of_ne_length hk, own?_of_ne_length hk, stored, stored, hstorage]
  rcases hobject (h.storage a) with heq | ⟨hself, heq⟩
  · rw [heq]
  · rw [heq, hself, hproperty]

theorem own?_index (hp : h.isProxy a = false) (i : Nat) : h.own? a (.index i) = (h.object a).elements[i]? := by
  rw [own?, stored, storage_of_not_isProxy hp]
  cases (h.object a).kind <;> simp [Key.length, Object.property?]

/-- Two heaps have the same own properties under a key, as far as the first one goes, and their objects inherit
from the same ones. -/
structure Agrees (h h' : Heap) (k : Key) : Prop where
  size : h.objects.size ≤ h'.objects.size
  proto : ∀ a < h.objects.size, (h'.stored a).proto = (h.stored a).proto
  own : ∀ a < h.objects.size, h'.own? a k = h.own? a k

private theorem lt_size_of_findWithin {n : Nat} (hp : h.findWithin k n a = some p) : a < h.objects.size := by
  by_contra ha
  cases n with
  | zero => cases hp
  | succ n => simp [findWithin, own?_of_size_le (Nat.le_of_not_lt ha), stored_of_size_le (Nat.le_of_not_lt ha)] at hp

theorem Agrees.findWithin (hagrees : h.Agrees h' k) {m n : Nat} (hmn : n ≤ m) (hp : h.findWithin k n a = some p) :
    h'.findWithin k m a = some p := by
  induction n generalizing a m with
  | zero => cases hp
  | succ n ih =>
    obtain ⟨m, rfl⟩ : ∃ i, m = i + 1 := Nat.exists_eq_add_one.2 (Nat.lt_of_lt_of_le n.succ_pos hmn)
    have ha := lt_size_of_findWithin hp
    rw [Heap.findWithin] at hp ⊢
    rw [hagrees.own a ha, hagrees.proto a ha]
    rcases hown : h.own? a k with _ | q
    · rcases hproto : (h.stored a).proto with _ | b
      · simp [hown, hproto] at hp
      · simp only [hown, hproto] at hp ⊢
        exact ih (Nat.le_of_succ_le_succ hmn) hp
    · simpa [hown] using hp

theorem lt_size_of_find? (hp : h.find? a k = some p) : a < h.objects.size := lt_size_of_findWithin hp

/-- What is found stays found. -/
theorem Agrees.find? (hagrees : h.Agrees h' k) (hp : h.find? a k = some p) : h'.find? a k = some p :=
  hagrees.findWithin (Nat.succ_le_succ hagrees.size) hp

theorem find?_of_own? (hp : h.own? a k = some p) : h.find? a k = some p := by
  simp [Heap.find?, Heap.findWithin, hp]

theorem get_of_find? (hp : h.find? a k = some p) : h.get a k = p.value := by simp [get, hp]

/-- An index of an array is defined in the array itself. -/
theorem define_index {n : Nat} {w : Bool} (hkind : (h.object a).kind = .array n w) (i : Nat) (d : Descriptor) :
    h.define a (.index i) d =
      (((h.object a).define (.index i) d).1, h.setObject a ((h.object a).define (.index i) d).2) := by
  unfold define
  rw [hkind]
  change h.defineStored a (.index i) d = _
  unfold defineStored
  dsimp only
  rw [hkind]
  dsimp only
  rw [if_neg (by simp [Key.length])]

/-- The second heap has the objects of the first one, and maybe more. -/
structure Grown (h h' : Heap) : Prop where
  size : h.objects.size ≤ h'.objects.size
  object : ∀ a < h.objects.size, h'.object a = h.object a

namespace Grown

theorem refl (h : Heap) : h.Grown h := ⟨le_rfl, fun _ _ => rfl⟩

theorem trans (hgrown : h.Grown h') (hgrown' : h'.Grown h'') : h.Grown h'' :=
  ⟨hgrown.size.trans hgrown'.size, fun a ha =>
    (hgrown'.object a (ha.trans_le hgrown.size)).trans (hgrown.object a ha)⟩

theorem alloc (h : Heap) (o : Object) : h.Grown (h.alloc o).1 := ⟨by simp, fun _ ha => object_alloc_of_lt o ha⟩

theorem storage (hgrown : h.Grown h') (ha : a < h.objects.size) : h'.storage a = h.storage a :=
  storage_congr fun b hb => by rw [hgrown.object b (hb.trans_lt ha)]

theorem stored (hgrown : h.Grown h') (ha : a < h.objects.size) : h'.stored a = h.stored a := by
  rw [Heap.stored, hgrown.storage ha, hgrown.object _ ((h.storage_le a).trans_lt ha), Heap.stored]

theorem own? (hgrown : h.Grown h') (ha : a < h.objects.size) (k : Key) : h'.own? a k = h.own? a k := by
  rw [Heap.own?, hgrown.stored ha, Heap.own?]

theorem agrees (hgrown : h.Grown h') (k : Key) : h.Agrees h' k :=
  ⟨hgrown.size, fun a ha => by rw [hgrown.stored ha], fun a ha => hgrown.own? ha k⟩

theorem find? (hgrown : h.Grown h') (hp : h.find? a k = some p) : h'.find? a k = some p := (hgrown.agrees k).find? hp

theorem code? (hgrown : h.Grown h') {c : Code} (hc : h.code? a = some c) : h'.code? a = some c := by
  have ha : a < h.objects.size := by
    by_contra ha
    simp [Heap.code?, stored_of_size_le (Nat.le_of_not_lt ha)] at hc
  rwa [Heap.code?, hgrown.stored ha]

end Grown

/-- Objects are added that have no property of their own under a key. -/
structure Adds (k : Key) (h h' : Heap) : Prop extends h.Grown h' where
  old : ∀ a p, h'.own? a k = some p → h.own? a k = some p

namespace Adds

theorem refl (k : Key) (h : Heap) : Adds k h h := ⟨.refl h, fun _ _ => id⟩

theorem trans (hadds : Adds k h h') (hadds' : Adds k h' h'') : Adds k h h'' :=
  ⟨hadds.toGrown.trans hadds'.toGrown, fun a p hp => hadds.old a p (hadds'.old a p hp)⟩

theorem alloc (hk : k ≠ .length) (h : Heap) {o : Object} (hproxy : o.kind.proxy? = none)
    (hnone : o.property? k = none) : Adds k h (h.alloc o).1 := by
  have hgrown := Grown.alloc h o
  refine ⟨hgrown, fun a p hp => ?_⟩
  rcases Nat.lt_trichotomy a h.objects.size with ha | rfl | ha
  · rwa [hgrown.own? ha] at hp
  · have hself := object_alloc_self h o
    have hproxy : (h.alloc o).1.isProxy h.objects.size = false := by rw [isProxy_eq, hself, hproxy]; rfl
    rw [own?_of_ne_length hk, stored, storage_of_not_isProxy hproxy, hself, hnone] at hp
    cases hp
  · rw [own?_of_size_le (by rw [size_alloc]; exact ha)] at hp
    cases hp

end Adds

/-- What reading a property of an object gives, by a property that is found. -/
def Holds (h : Heap) (a : Address) (k : Key) (v : Value) : Prop := ∃ p, h.find? a k = some p ∧ p.value = v

/-- A method of an object is a function of the language. -/
def Offers (h : Heap) (a : Address) (name : String) (b : Builtin) : Prop :=
  ∃ f, h.Holds a (.ofText name) (.object f) ∧ h.code? f = some (.builtin b)

theorem lt_size_of_holds {v : Value} (hv : h.Holds a k v) : a < h.objects.size := by
  obtain ⟨p, hp, -⟩ := hv
  exact lt_size_of_find? hp

theorem Holds.get_eq {v : Value} (hv : h.Holds a k v) : h.get a k = v := by
  obtain ⟨p, hp, rfl⟩ := hv
  exact get_of_find? hp

theorem Holds.unique {v w : Value} (hv : h.Holds a k v) (hw : h.Holds a k w) : v = w := hv.get_eq.symm.trans hw.get_eq

theorem Grown.holds {v : Value} (hgrown : h.Grown h') (hv : h.Holds a k v) : h'.Holds a k v := by
  obtain ⟨p, hp, hpv⟩ := hv
  exact ⟨p, hgrown.find? hp, hpv⟩

theorem Grown.offers {name : String} {b : Builtin} (hgrown : h.Grown h') (hb : h.Offers a name b) :
    h'.Offers a name b := by
  obtain ⟨f, hf, hcode⟩ := hb
  exact ⟨f, hgrown.holds hf, hgrown.code? hcode⟩

end Heap
end ScriptBridge.Script
