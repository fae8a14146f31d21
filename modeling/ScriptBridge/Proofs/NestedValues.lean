import Mathlib.Algebra.BigOperators.Group.Finset.Basic
import Mathlib.Algebra.Order.BigOperators.Group.Finset
import ScriptBridge.Proofs.OrderlyTables

/-! Values of nested arrays, as they lie in a heap. A value without cycles lies there as one tree only, however often its
arrays are shared, and the longest way into it passes each array once. -/
namespace ScriptBridge.Script

variable {h h' : Heap} {m : Memory} {a b : Address} {i : Nat} {v w : Value} {vs ws : List Value}
  {changed : Address → Prop}

/-- Nothing is found under an index from an object on. -/
inductive Heap.Barren (h : Heap) : Address → Prop
  | intro {a : Address} (made : a < h.objects.size) (proxy : h.isProxy a = false)
      (elements : ∀ i : Nat, (h.object a).elements[i]? = none)
      (proto : ∀ b, (h.object a).proto = some b → h.Barren b) : h.Barren a

namespace Heap.Barren

theorem elements (hbarren : h.Barren a) (i : Nat) : (h.object a).elements[i]? = none := by
  obtain ⟨-, -, helements, -⟩ := hbarren
  exact helements i

theorem findWithin (hbarren : h.Barren a) (i n : Nat) : h.findWithin (.index i) n a = none := by
  induction hbarren generalizing n with
  | intro _ hproxy helements _ ih => exact findWithin_bare hproxy (helements i) (fun b hb n => ih b hb n) n

theorem intact (hintact : h.Intact changed h') (hsafe : ∀ b, h.Barren b → ¬changed b) (hbarren : h.Barren a) :
    h'.Barren a := by
  induction hbarren with
  | @intro a hmade hproxy helements hproto ih =>
    obtain ⟨helements', hproto'⟩ := hintact.inherits a hmade (hsafe a ⟨hmade, hproxy, helements, hproto⟩)
    refine ⟨hmade.trans_le hintact.size, (hintact.isProxy hmade).trans hproxy, fun i => ?_, fun b hb => ?_⟩
    · rw [helements', helements i]
    · exact ih b (by rw [← hproto', hb])

end Heap.Barren

/-- An array with the items of a list. In its holes the list has nothing, and nothing is inherited there. -/
structure ListOf (h : Heap) (a : Address) (vs : List Value) : Prop where
  kind : ∃ w, (h.object a).kind = .array vs.length w
  bound : vs.length < 2 ^ 32
  item : ∀ (i : Nat) (hi : i < vs.length), ((h.object a).elements[i]?.map Property.value).getD .undefined = vs[i]
  inherited : ∀ b, (h.object a).proto = some b → h.Barren b

namespace ListOf

theorem isProxy (hlist : ListOf h a vs) : h.isProxy a = false := by
  obtain ⟨w, hkind⟩ := hlist.kind
  rw [Heap.isProxy, hkind]

theorem isArray (hlist : ListOf h a vs) : h.isArray a = true := by
  obtain ⟨w, hkind⟩ := hlist.kind
  exact Heap.isArray_of_kind hkind

theorem made (hlist : ListOf h a vs) : a < h.objects.size := by
  obtain ⟨w, hkind⟩ := hlist.kind
  exact Heap.lt_size_of_array hkind

theorem get_length (hlist : ListOf h a vs) : h.get a .length = .nat vs.length := by
  obtain ⟨w, hkind⟩ := hlist.kind
  refine Heap.get_of_find? (p := ⟨.nat vs.length, w, false, false⟩) (Heap.find?_of_own? ?_)
  rw [Heap.own?, Heap.stored, Heap.storage_of_not_isProxy hlist.isProxy, hkind]
  rfl

theorem get_item (hlist : ListOf h a vs) (hi : i < vs.length) : h.get a (.ofNat i) = vs[i] := by
  have hbound := hlist.bound
  have hkey : Key.ofNat i = .index i := if_pos (by unfold Key.indexBound; omega)
  have hitem := hlist.item i hi
  rw [hkey]
  cases helement : (h.object a).elements[i]? with
  | some p =>
    rw [helement] at hitem
    exact (Heap.get_of_find? (Heap.find?_of_own? (by rw [Heap.own?_index hlist.isProxy, helement]))).trans hitem
  | none =>
    have hfind : h.find? a (.index i) = none :=
      findWithin_bare hlist.isProxy helement (fun b hb n => (hlist.inherited b hb).findWithin i n) _
    rw [helement] at hitem
    rw [Heap.get, hfind, ← hitem]
    exact if_neg (by simp [Key.proto])

/-- The items of an array are determined. -/
theorem unique (hlist : ListOf h a vs) (hlist' : ListOf h a ws) : vs = ws := by
  obtain ⟨w, hkind⟩ := hlist.kind
  obtain ⟨w', hkind'⟩ := hlist'.kind
  have hlength : vs.length = ws.length := (Kind.array.inj (hkind.symm.trans hkind')).1
  refine List.ext_getElem hlength fun i hi hi' => ?_
  rw [← hlist.item i hi, hlist'.item i hi']

theorem object_eq (hintact : h.Intact changed h') (ha : ¬changed a) (hlist : ListOf h a vs) : h'.object a = h.object a :=
  hintact.arrays a hlist.made ha hlist.isArray hlist.isProxy

theorem intact (hintact : h.Intact changed h') (hsafe : ∀ b, h.Barren b → ¬changed b) (ha : ¬changed a)
    (hlist : ListOf h a vs) : ListOf h' a vs := by
  have heq := hlist.object_eq hintact ha
  exact ⟨by rw [heq]; exact hlist.kind, hlist.bound, by rw [heq]; exact hlist.item,
    fun b hb => (hlist.inherited b (by rw [← heq, hb])).intact hintact hsafe⟩

end ListOf

/-- A value of nested arrays, laid out as a tree. -/
inductive Nested where
  | leaf (v : Value)
  | array (items : List Nested)

namespace Nested

mutual
/-- The objects among the leaves from left to right, each as often as it occurs. -/
def objects : Nested → List Address
  | leaf (.object a) => [a]
  | leaf _ => []
  | array items => objectsOf items

def objectsOf : List Nested → List Address
  | [] => []
  | t :: rest => t.objects ++ objectsOf rest
end

mutual
/-- The tree with texts in the place of its objects; what is nullish becomes null. -/
def rendered (token : Address → String) : Nested → Nested
  | leaf (.object a) => leaf (.text (token a))
  | leaf v => leaf (if v.isNullish then .null else v)
  | array items => array (renderedOf token items)

def renderedOf (token : Address → String) : List Nested → List Nested
  | [] => []
  | t :: rest => t.rendered token :: renderedOf token rest
end

theorem length_renderedOf (token : Address → String) : (ts : List Nested) → (renderedOf token ts).length = ts.length
  | [] => rfl
  | _ :: rest => congrArg Nat.succ (length_renderedOf token rest)

mutual
/-- The fuel for the longest way into a tree: on the way to an item, an array takes as much as there are items before. -/
def need : Nested → Nat
  | leaf _ => 1
  | array items => needOf items + 1

def needOf : List Nested → Nat
  | [] => 1
  | t :: rest => max t.need (needOf rest) + 1
end

mutual
/-- A value is laid out as a tree, with leaves of some kind, and with its arrays having their items in some way. -/
def Lies (leaves : Value → Prop) (has : Address → List Value → Prop) : Nested → Value → Prop
  | leaf w, v => v = w ∧ leaves w
  | array items, v => ∃ a vs, v = .object a ∧ has a vs ∧ LieAll leaves has items vs

def LieAll (leaves : Value → Prop) (has : Address → List Value → Prop) : List Nested → List Value → Prop
  | [], vs => vs = []
  | t :: rest, vs => ∃ v others, vs = v :: others ∧ t.Lies leaves has v ∧ LieAll leaves has rest others
end

variable {leaves leaves' : Value → Prop} {has has' : Address → List Value → Prop}

theorem LieAll.length : {ts : List Nested} → {vs : List Value} → LieAll leaves has ts vs → vs.length = ts.length
  | [], _, hvs => by rw [LieAll] at hvs; rw [hvs]; rfl
  | t :: rest, _, hvs => by
    rw [LieAll] at hvs
    obtain ⟨v, others, rfl, -, hothers⟩ := hvs
    rw [List.length_cons, List.length_cons, hothers.length]

mutual
theorem Lies.mono (hleaves : ∀ v, leaves v → leaves' v) (hhas : ∀ a vs, has a vs → has' a vs) :
    (t : Nested) → {v : Value} → t.Lies leaves has v → t.Lies leaves' has' v
  | leaf w, v, hv => by
    rw [Lies] at hv ⊢
    exact hv.imp_right (hleaves w)
  | array items, v, hv => by
    rw [Lies] at hv ⊢
    obtain ⟨a, vs, rfl, ha, hvs⟩ := hv
    exact ⟨a, vs, rfl, hhas a vs ha, LieAll.mono hleaves hhas items hvs⟩

theorem LieAll.mono (hleaves : ∀ v, leaves v → leaves' v) (hhas : ∀ a vs, has a vs → has' a vs) :
    (ts : List Nested) → {vs : List Value} → LieAll leaves has ts vs → LieAll leaves' has' ts vs
  | [], _, hvs => hvs
  | t :: rest, _, hvs => by
    rw [LieAll] at hvs ⊢
    obtain ⟨v, others, rfl, hv, hothers⟩ := hvs
    exact ⟨v, others, rfl, Lies.mono hleaves hhas t hv, LieAll.mono hleaves hhas rest hothers⟩
end

/-- A value that is neither a proxy nor an array. -/
def Solid (h : Heap) (v : Value) : Prop := ∀ a, v = .object a → h.Plain a

/-- No leaf is an array, and each array has its items in one way. -/
structure Settled (leaves : Value → Prop) (has : Address → List Value → Prop) : Prop where
  apart : ∀ a vs, leaves (.object a) → ¬has a vs
  items : ∀ a vs ws, has a vs → has a ws → vs = ws

mutual
/-- Where leaves and items are settled, a value lies as one tree only. -/
theorem Lies.determined (hsettled : Settled leaves has) : (t : Nested) → {s : Nested} → {v : Value} →
    t.Lies leaves has v → s.Lies leaves has v → t = s
  | leaf w, s, v, ht, hs => by
    rw [Lies] at ht
    obtain ⟨rfl, hv⟩ := ht
    cases s with
    | leaf w =>
      rw [Lies] at hs
      rw [hs.1]
    | array items =>
      rw [Lies] at hs
      obtain ⟨a, vs, rfl, ha, -⟩ := hs
      exact absurd ha (hsettled.apart a vs hv)
  | array items, s, v, ht, hs => by
    rw [Lies] at ht
    obtain ⟨a, vs, rfl, ha, hvs⟩ := ht
    cases s with
    | leaf w =>
      rw [Lies] at hs
      exact absurd ha (hsettled.apart a vs (hs.1 ▸ hs.2))
    | array items' =>
      rw [Lies] at hs
      obtain ⟨a', vs', heq, ha', hvs'⟩ := hs
      obtain rfl := Value.object.inj heq
      obtain rfl := hsettled.items a vs vs' ha ha'
      rw [LieAll.determined hsettled items hvs hvs']

theorem LieAll.determined (hsettled : Settled leaves has) : (ts : List Nested) → {ss : List Nested} →
    {vs : List Value} → LieAll leaves has ts vs → LieAll leaves has ss vs → ts = ss
  | [], ss, vs, hts, hss => by
    rw [LieAll] at hts
    subst hts
    exact (List.eq_nil_of_length_eq_zero hss.length.symm).symm
  | t :: rest, ss, vs, hts, hss => by
    rw [LieAll] at hts
    obtain ⟨v, others, rfl, hv, hothers⟩ := hts
    cases ss with
    | nil =>
      rw [LieAll] at hss
      cases hss
    | cons s rest' =>
      rw [LieAll] at hss
      obtain ⟨v', others', heq, hv', hothers'⟩ := hss
      obtain ⟨rfl, rfl⟩ := List.cons.inj heq
      rw [Lies.determined hsettled t hv hv', LieAll.determined hsettled rest hothers hothers']
end

/-- An array that lies as a tree for which some fuel is enough. -/
def Short (h : Heap) (N : Nat) (a : Address) : Prop :=
  ∃ items, (array items).Lies (Solid h) (ListOf h) (.object a) ∧ (array items).need ≤ N

theorem Short.mono {M N : Nat} (hMN : M ≤ N) (ha : Short h M a) : Short h N a := by
  obtain ⟨items, hlies, hneed⟩ := ha
  exact ⟨items, hlies, hneed.trans hMN⟩

end Nested
end ScriptBridge.Script
