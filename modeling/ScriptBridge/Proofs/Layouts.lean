import ScriptBridge.Engine.Embedded
import ScriptBridge.Proofs.Library

/-! How wire values lie in a heap: an array with its items, and objects where their tokens are to stand. What lies in
a heap keeps lying there while its arrays stay as they are. -/
namespace ScriptBridge

open Script

mutual
/-- The arrays on the longest way into a value. -/
def Wire.nesting : Wire → Nat
  | .array items => itemNesting items + 1
  | _ => 0

def Wire.itemNesting : List Wire → Nat
  | [] => 0
  | w :: rest => max w.nesting (itemNesting rest)
end

mutual
/-- The fuel that arrays and their items take on the way through the converter. -/
def Wire.cost : Wire → Nat
  | .array items => itemCost items
  | _ => 0

def Wire.itemCost : List Wire → Nat
  | [] => 1
  | w :: rest => w.cost + itemCost rest + 1
end

mutual
/-- A wire value with its numbers in their canonical form. -/
def Wire.canonical : Wire → Wire
  | .number x => .number x.canonical
  | .array items => .array (canonicalItems items)
  | w => w

def Wire.canonicalItems : List Wire → List Wire
  | [] => []
  | w :: rest => w.canonical :: canonicalItems rest
end

mutual
/-- A native value with its numbers in their canonical form. -/
def Native.canonical : Native → Native
  | .double x => .double x.canonical
  | .array items => .array (canonicalItems items)
  | v => v

def Native.canonicalItems : List Native → List Native
  | [] => []
  | v :: rest => v.canonical :: canonicalItems rest
end

theorem Wire.itemCost_pos (ws : List Wire) : 0 < itemCost ws := by cases ws <;> simp [itemCost]

namespace Script

/-- The elements of an array are the items of a list, each in its place. -/
def Fills (elements : Std.TreeMap Nat Property) (ws : List Value) : Prop :=
  ∀ i : Nat, elements[i]? = ws[i]?.map Property.plain

theorem Fills.empty : Fills ∅ [] := fun i => by simp

theorem Fills.insert {elements : Std.TreeMap Nat Property} {ws : List Value} (hfills : Fills elements ws) (w : Value) :
    Fills (elements.insert ws.length (.plain w)) (ws ++ [w]) := by
  intro i
  rw [Std.TreeMap.getElem?_insert]
  rcases Nat.lt_trichotomy i ws.length with hi | rfl | hi
  · rw [if_neg (by simpa using hi.ne'), hfills, List.getElem?_append_left hi]
  · simp
  · have hlength : (ws ++ [w]).length ≤ i := by rw [List.length_append]; exact hi
    rw [if_neg (by simpa using hi.ne), hfills, List.getElem?_eq_none hi.le, List.getElem?_eq_none hlength]

/-- An array with the items of a list. -/
structure ArrayOf (h : Heap) (a : Address) (ws : List Value) : Prop where
  kind : (h.object a).kind = .array ws.length true
  elements : Fills (h.object a).elements ws
  bound : ws.length < 2 ^ 32

namespace ArrayOf

variable {h h' : Heap} {a : Address} {ws : List Value}

theorem of_object_eq (heq : h'.object a = h.object a) (harray : ArrayOf h a ws) : ArrayOf h' a ws :=
  ⟨heq ▸ harray.kind, heq ▸ harray.elements, harray.bound⟩

theorem stored (harray : ArrayOf h a ws) : h.stored a = h.object a := by
  rw [Heap.stored, Heap.storage_of_not_isProxy (by rw [Heap.isProxy, harray.kind])]

theorem isArray (harray : ArrayOf h a ws) : h.isArray a = true := by rw [Heap.isArray, harray.stored, harray.kind]

theorem length (harray : ArrayOf h a ws) : h.length a = ws.length := by
  rw [Heap.length, harray.stored, harray.kind]

theorem get_length (harray : ArrayOf h a ws) : h.get a .length = .nat ws.length := by
  refine Heap.get_of_find? (p := ⟨.nat ws.length, true, false, false⟩) (Heap.find?_of_own? ?_)
  rw [Heap.own?, harray.stored, harray.kind]
  rfl

theorem get_item (harray : ArrayOf h a ws) {i : Nat} {w : Value} (hw : ws[i]? = some w) : h.get a (.ofNat i) = w := by
  have hi : i < ws.length := (List.getElem?_eq_some_iff.1 hw).1
  have hkey : Key.ofNat i = .index i := if_pos (Nat.lt_of_lt_of_le hi (Nat.le_sub_one_of_lt harray.bound))
  have hown : h.own? a (.index i) = some (.plain w) := by
    rw [Heap.own?, harray.stored, harray.kind]
    change (h.object a).elements[i]? = _
    rw [harray.elements, hw, Option.map_some]
  rw [hkey]
  exact Heap.get_of_find? (Heap.find?_of_own? hown)

theorem items (harray : ArrayOf h a ws) : Embedded.items h a = ws := by
  rw [Embedded.items, harray.length]
  refine List.ext_getElem (by simp) fun i _ hi => ?_
  rw [List.getElem_map, List.getElem_range, harray.get_item (List.getElem?_eq_getElem hi)]

end ArrayOf

mutual
/-- A value is laid out as a wire value: an array as one that is among those made, and a text as itself or as an
object that it names. -/
def Lies (h : Heap) (made : Address → Prop) (named : String → Address → Prop) : Wire → Value → Prop
  | .null, v => v = .null
  | .bool b, v => v = .bool b
  | .number x, v => ∃ n, v = .number n ∧ n.toDouble = x
  | .text s, v => v = .text s ∨ ∃ a, v = .object a ∧ named s a
  | .array items, v => ∃ a vs, v = .object a ∧ made a ∧ ArrayOf h a vs ∧ LieAll h made named items vs

def LieAll (h : Heap) (made : Address → Prop) (named : String → Address → Prop) : List Wire → List Value → Prop
  | [], vs => vs = []
  | w :: rest, vs => ∃ v others, vs = v :: others ∧ Lies h made named w v ∧ LieAll h made named rest others
end

variable {h h' : Heap} {made made' : Address → Prop} {named named' : String → Address → Prop}

mutual
/-- Values lie in another heap as well, when it has the arrays on the way. -/
theorem Lies.mono (hmade : ∀ a, made a → made' a ∧ h'.object a = h.object a) (hnamed : ∀ s a, named s a → named' s a) :
    (w : Wire) → {v : Value} → Lies h made named w v → Lies h' made' named' w v
  | .null, _, hv => hv
  | .bool _, _, hv => hv
  | .number _, _, hv => hv
  | .text _, _, hv => by
    rw [Lies] at hv ⊢
    exact hv.imp_right fun ⟨a, ha, hname⟩ => ⟨a, ha, hnamed _ a hname⟩
  | .array items, _, hv => by
    rw [Lies] at hv ⊢
    obtain ⟨a, vs, ha, hmadea, harray, hvs⟩ := hv
    exact ⟨a, vs, ha, (hmade a hmadea).1, harray.of_object_eq (hmade a hmadea).2, LieAll.mono hmade hnamed items hvs⟩

theorem LieAll.mono (hmade : ∀ a, made a → made' a ∧ h'.object a = h.object a)
    (hnamed : ∀ s a, named s a → named' s a) :
    (ws : List Wire) → {vs : List Value} → LieAll h made named ws vs → LieAll h' made' named' ws vs
  | [], _, hvs => hvs
  | w :: rest, _, hvs => by
    rw [LieAll] at hvs ⊢
    obtain ⟨v, others, hvs, hv, hothers⟩ := hvs
    exact ⟨v, others, hvs, Lies.mono hmade hnamed w hv, LieAll.mono hmade hnamed rest hothers⟩
end

theorem LieAll.length : {ws : List Wire} → {vs : List Value} → LieAll h made named ws vs → vs.length = ws.length
  | [], _, hvs => by rw [LieAll] at hvs; rw [hvs]; rfl
  | w :: rest, _, hvs => by
    rw [LieAll] at hvs
    obtain ⟨v, others, rfl, -, hothers⟩ := hvs
    rw [List.length_cons, List.length_cons, hothers.length]

mutual
/-- What lies in the heap without tokens to be given is what crosses the boundary. -/
theorem wire_of_lies : (w : Wire) → {v : Value} → {depth : Nat} → Lies h made (fun _ _ => False) w v →
    w.nesting ≤ depth → Embedded.wire h depth v = pure w
  | .null, _, depth, hv, _ => by
    rw [Lies] at hv
    rw [hv]
    cases depth <;> rfl
  | .bool b, _, depth, hv, _ => by
    rw [Lies] at hv
    rw [hv]
    cases depth <;> rfl
  | .number x, _, depth, hv, _ => by
    rw [Lies] at hv
    obtain ⟨n, rfl, rfl⟩ := hv
    cases depth <;> rfl
  | .text s, _, depth, hv, _ => by
    rw [Lies] at hv
    obtain rfl | ⟨_, _, hnone⟩ := hv
    · cases depth <;> rfl
    · exact hnone.elim
  | .array items, _, depth, hv, hdepth => by
    rw [Lies] at hv
    obtain ⟨a, vs, rfl, -, harray, hvs⟩ := hv
    rw [Wire.nesting] at hdepth
    obtain ⟨depth, rfl⟩ : ∃ d, depth = d + 1 := Nat.exists_eq_add_one.2 (Nat.zero_lt_of_lt hdepth)
    rw [Embedded.wire, harray.isArray, if_pos rfl, harray.items,
      wires_of_lieAll items hvs (Nat.le_of_succ_le_succ hdepth)]
    rfl

theorem wires_of_lieAll : (ws : List Wire) → {vs : List Value} → {depth : Nat} →
    LieAll h made (fun _ _ => False) ws vs → Wire.itemNesting ws ≤ depth → vs.mapM (Embedded.wire h depth) = pure ws
  | [], _, _, hvs, _ => by
    rw [LieAll] at hvs
    rw [hvs, List.mapM_nil]
  | w :: rest, _, depth, hvs, hdepth => by
    rw [LieAll] at hvs
    obtain ⟨v, others, rfl, hv, hothers⟩ := hvs
    rw [Wire.itemNesting] at hdepth
    rw [List.mapM_cons, wire_of_lies w hv (le_of_max_le_left hdepth), pure_bind,
      wires_of_lieAll rest hothers (le_of_max_le_right hdepth), pure_bind]
end

theorem toWire_of_lies {w : Wire} {v : Value} (hv : Lies h made (fun _ _ => False) w v)
    (hdepth : w.nesting ≤ h.objects.size) : Embedded.toWire h v = .ok w := by
  rw [Embedded.toWire, wire_of_lies w hv hdepth]
  rfl

end Script
end ScriptBridge
