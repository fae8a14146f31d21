import ScriptBridge.Handle
import ScriptBridge.Text.Quoted

/-! References: what the native side keeps of a script object. A reference names a slot of the handle
table that its session had in one generation. -/
namespace ScriptBridge

open Text (decimal)

/-- Sessions are told apart by number. -/
abbrev SessionId := Nat

structure Reference where
  session : SessionId
  handle : Handle
  /-- the name of the capability that the reference is typed by -/
  capability : String
  generation : Nat
  deriving DecidableEq, Repr, Inhabited

namespace Reference

/-- The same slot under another capability. -/
def withCapability (r : Reference) (name : String) : Reference := { r with capability := name }

/-- The slot of a reference: all that counts for its identity. -/
structure Slot where
  handle : Handle
  generation : Nat
  session : SessionId
  deriving DecidableEq

def slot (r : Reference) : Slot := ⟨r.handle, r.generation, r.session⟩

/-- Two references are the same when they name the same slot, under whatever capability. -/
def same (a b : Reference) : Bool := a.slot == b.slot

/-- What a reference feeds to a hash. -/
def hashKey (r : Reference) : Handle × Nat := (r.handle, r.generation)

def inspectHandle (h : Handle) : String := "Handle(" ++ h.numeral ++ ")"

/-- The form in which a reference is shown in messages. -/
def inspect (r : Reference) : String :=
  "RemoteRef \x7b handle: " ++ inspectHandle r.handle ++ ", capability: " ++ Text.quoted r.capability
    ++ ", generation: " ++ String.ofList (decimal r.generation) ++ " \x7d"

end Reference
end ScriptBridge
