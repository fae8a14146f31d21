import Mathlib.Logic.Relation
import ScriptBridge.Proofs.CapturedExpressions
import ScriptBridge.Proofs.NestedValues

/-! What the embedded engine hands out of the value that a body returns. Arrays of scripts form a graph, in which they
may be shared and may contain themselves. The adapter unrolls it into a tree; the tree is finite exactly when no array
of the value contains itself, and then no way into it is longer than there are objects. -/
namespace ScriptBridge

open Script

namespace Script.Nested

mutual
/-- The leaves from left to right. -/
def leaves : Nested → List Value
  | leaf v => [v]
  | array items => leavesOf items

def leavesOf : List Nested → List Value
  | [] => []
  | t :: rest => t.leaves ++ leavesOf rest
end

mutual
/-- How deep arrays lie in arrays. -/
def depth : Nested → Nat
  | leaf _ => 0
  | array items => depthOf items + 1

def depthOf : List Nested → Nat
  | [] => 0
  | t :: rest => max t.depth (depthOf rest)
end

end Script.Nested

namespace Embedded

/-- A value that has no items. -/
def IsLeaf (h : Heap) (v : Value) : Prop := ∀ a, v = .object a → h.isArray a = false

/-- An array, and what is read of it under its indices. -/
def HasItems (h : Heap) (a : Address) (vs : List Value) : Prop := h.isArray a = true ∧ items h a = vs

/-- The value is this tree, when its arrays are unrolled. -/
def Unrolls (h : Heap) (v : Value) (t : Nested) : Prop := t.Lies (IsLeaf h) (HasItems h) v

/-- The first value is an item of the second. -/
def IsItem (h : Heap) (u v : Value) : Prop := ∃ a, v = .object a ∧ h.isArray a = true ∧ u ∈ items h a

/-- What a leaf is on the other side. -/
def leafWire : Value → Wire
  | .bool b => .bool b
  | .number x => .number x.toDouble
  | .string (.text s) => .text s
  | _ => .null

/-- Why a leaf has no form on the other side. -/
def leafFault? (h : Heap) : Value → Option EngineError
  | .string (.broken us) => some (brokenString us)
  | .symbol d => some (.unsupported (typeName h (.symbol d)))
  | .object a => some (.unsupported (typeName h (.object a)))
  | _ => none

mutual
/-- The tree on the other side. -/
def treeWire : Nested → Wire
  | .leaf v => leafWire v
  | .array items => .array (treeWires items)

def treeWires : List Nested → List Wire
  | [] => []
  | t :: rest => treeWire t :: treeWires rest
end

/-- The fault of the first leaf that has one. -/
def treeFault? (h : Heap) (t : Nested) : Option EngineError := t.leaves.findSome? (leafFault? h)

variable {h h' : Heap} {u v : Value} {a : Address} {t : Nested} {n : Nat}

section Finite

theorem lt_size_of_isArray (ha : h.isArray a = true) : a < h.objects.size := by
  by_contra hsize
  have hobject : h.object a = {} := by rw [Heap.object, Array.getElem?_eq_none (Nat.le_of_not_lt hsize), Option.getD_none]
  have hproxy : h.isProxy a = false := by rw [Heap.isProxy, hobject]
  rw [Heap.isArray, Heap.stored, Heap.storage_of_not_isProxy hproxy, hobject] at ha
  cases ha

mutual
theorem acc_of_unrolls : (t : Nested) → {v : Value} → Unrolls h v t → Acc (IsItem h) v
  | .leaf w, v, hv => by
    obtain ⟨rfl, hleaf⟩ := hv
    refine ⟨_, ?_⟩
    rintro u ⟨a, rfl, ha, -⟩
    rw [hleaf a rfl] at ha
    cases ha
  | .array ts, v, hv => by
    obtain ⟨a, vs, rfl, hitems, hvs⟩ := hv
    refine ⟨_, ?_⟩
    rintro u ⟨b, hb, -, hu⟩
    obtain rfl := Value.object.inj hb
    rw [hitems.2] at hu
    exact accs_of_lieAll ts hvs u hu

theorem accs_of_lieAll : (ts : List Nested) → {vs : List Value} → Nested.LieAll (IsLeaf h) (HasItems h) ts vs →
    ∀ v ∈ vs, Acc (IsItem h) v
  | [], vs, hvs => by
    rw [Nested.LieAll] at hvs
    rw [hvs]
    exact nofun
  | t :: rest, vs, hvs => by
    obtain ⟨v, others, rfl, hv, hothers⟩ := hvs
    exact List.forall_mem_cons.2 ⟨acc_of_unrolls t hv, accs_of_lieAll rest hothers⟩
end

end Finite

section Adapter

/-- What is handed out of a tree: its form on the other side, or the first fault. -/
def treeResult (h : Heap) (t : Nested) : Except EngineError Wire :=
  match treeFault? h t with
  | some e => .error e
  | none => .ok (treeWire t)

def treeResults (h : Heap) (ts : List Nested) : Except EngineError (List Wire) :=
  match (Nested.leavesOf ts).findSome? (leafFault? h) with
  | some e => .error e
  | none => .ok (treeWires ts)

theorem treeResults_cons (h : Heap) (t : Nested) (ts : List Nested) : treeResults h (t :: ts) =
    (do return (← treeResult h t) :: (← treeResults h ts)) := by
  rw [treeResults, treeResult, treeResults, Nested.leavesOf, List.findSome?_append, ← treeFault?, treeWires]
  cases treeFault? h t with
  | some e => rfl
  | none => cases (Nested.leavesOf ts).findSome? (leafFault? h) <;> rfl

theorem treeResult_array (h : Heap) (ts : List Nested) :
    treeResult h (.array ts) = (treeResults h ts).map Wire.array := by
  rw [treeResult, treeResults, treeFault?, Nested.leaves, treeWire]
  cases (Nested.leavesOf ts).findSome? (leafFault? h) <;> rfl

/-- Reading that comes to an end. -/
def ended {α : Type} (r : Except EngineError α) : ExceptT EngineError Option α := ExceptT.mk (some r)

theorem wire_leaf (n : Nat) (hv : IsLeaf h v) : wire h n v = ended (treeResult h (.leaf v)) := by
  cases v with
  | string c => cases c <;> cases n <;> rfl
  | object a => cases n <;> rw [wire, hv a rfl] <;> rfl
  | _ => cases n <;> rfl

theorem wire_array (n : Nat) (ha : h.isArray a = true) :
    wire h (n + 1) (.object a) = Wire.array <$> (items h a).mapM (wire h n) := by
  rw [wire, ha, if_pos rfl]
  rfl

mutual
/-- With room for its depth, a tree is read to its end or to its first fault. -/
theorem wire_of_unrolls : (t : Nested) → {v : Value} → {n : Nat} → Unrolls h v t → t.depth ≤ n →
    wire h n v = ended (treeResult h t)
  | .leaf w, v, n, hv, _ => by
    obtain ⟨rfl, hleaf⟩ := hv
    exact wire_leaf n hleaf
  | .array ts, v, n, hv, hdepth => by
    obtain ⟨a, vs, rfl, hitems, hvs⟩ := hv
    rw [Nested.depth] at hdepth
    obtain ⟨n, rfl⟩ := Nat.exists_eq_add_one.2 (Nat.zero_lt_of_lt hdepth)
    rw [wire_array n hitems.1, hitems.2, wires_of_lieAll ts hvs (Nat.le_of_succ_le_succ hdepth), treeResult_array]
    cases treeResults h ts <;> rfl

theorem wires_of_lieAll : (ts : List Nested) → {vs : List Value} → {n : Nat} →
    Nested.LieAll (IsLeaf h) (HasItems h) ts vs → Nested.depthOf ts ≤ n → vs.mapM (wire h n) = ended (treeResults h ts)
  | [], vs, n, hvs, _ => by
    rw [Nested.LieAll] at hvs
    rw [hvs]
    rfl
  | t :: rest, vs, n, hvs, hdepth => by
    obtain ⟨v, others, rfl, hv, hothers⟩ := hvs
    obtain ⟨hfirst, hrest⟩ := max_le_iff.1 hdepth
    rw [List.mapM_cons, wire_of_unrolls t hv hfirst, wires_of_lieAll rest hothers hrest, treeResults_cons]
    cases treeResult h t <;> cases treeResults h rest <;> rfl
end

end Adapter

/-- A script runs as the body of a function and returns a value. -/
def Returns (script : String) (h : Heap) (v : Value) (h' : Heap) : Prop :=
  nullAt? (wrap script.toList) = none ∧
    ∃ p, Program.ofBody script.toList = .ok p ∧ outcome (p.run .body) h = (.ok v, h')

theorem Returns.evaluate {script : String} (hreturns : Returns script h v h') :
    engine.evaluate script h = ⟨toWire h' v, h', []⟩ := by
  obtain ⟨hnull, p, hp, hrun⟩ := hreturns
  change launch (wrap script.toList) (Program.ofBody script.toList) .body toWire h = _
  unfold launch
  rw [hnull, hp]
  exact reply_of_ok hrun toWire

end Embedded
end ScriptBridge
