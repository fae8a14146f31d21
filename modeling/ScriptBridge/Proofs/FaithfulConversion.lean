import ScriptBridge.Proofs.Contexts
import ScriptBridge.Proofs.ReachableTables

/-! Faithful conversion. In every table that is reached, a value of nested arrays is converted to one of the same shape,
and the objects in it that had no slot get the next ones in order. The table itself may not be among the arrays: it
grows while it is read. -/
namespace ScriptBridge.Script

variable {h : Heap} {m : Memory} {a f : Address} {n : Nat} {v : Value} {slots : List Value}

open Embedded (engine)

/-- The handle of the slot that holds an object. -/
def handleIn (slots : List Value) (a : Address) : Handle := ⟨UInt32.ofNat (slots.idxOf (.object a))⟩

theorem index_handleIn (hslots : slots.Nodup) (hlength : slots.length < 2 ^ 32) (hn : slots[n]? = some (.object a)) :
    (handleIn slots a).index = n := by
  obtain ⟨hlt, hvalue⟩ := List.getElem?_eq_some_iff.1 hn
  have hidx : slots.idxOf (.object a) = n := by rw [← hvalue, hslots.idxOf_getElem]
  rw [handleIn, hidx, Handle.index, UInt32.toNat_ofNat_of_lt' (hlt.trans hlength)]

namespace Heap

variable {items : List (Nat × Value)}

end Heap

end ScriptBridge.Script
