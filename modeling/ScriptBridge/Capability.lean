import ScriptBridge.Reference

/-! Capabilities: named sets of members that a script object may have, and the typed stand-ins through
which they are called. -/
namespace ScriptBridge

structure Capability where
  /-- the name of its stand-ins in messages -/
  typeName : String
  name : String
  members : List String
  deriving DecidableEq, Repr, Inhabited

namespace Capability

/-- The capability of all objects; it names no member. -/
def dynamic : Capability := ⟨"DynamicProxy", "Dynamic", []⟩

end Capability

/-- A reference typed by a capability. -/
structure StandIn (c : Capability) where
  reference : Reference
  typed : reference.capability = c.name

namespace StandIn

def ofReference (c : Capability) (r : Reference) : StandIn c := ⟨r.withCapability c.name, rfl⟩

instance {c : Capability} : Inhabited (StandIn c) := ⟨ofReference c default⟩

def handle {c : Capability} (s : StandIn c) : Handle := s.reference.handle

/-- Stand-ins are the same when their references are. -/
def same {c : Capability} (a b : StandIn c) : Bool := a.reference.same b.reference

/-- The same object as a stand-in of another capability. -/
def query {c : Capability} (s : StandIn c) (d : Capability) : StandIn d := ofReference d s.reference

/-- The form in which a stand-in is shown in messages. -/
def inspect {c : Capability} (s : StandIn c) : String :=
  c.typeName ++ " \x7b handle: " ++ Reference.inspectHandle s.handle ++ " \x7d"

end StandIn

/-- The capabilities that an object may be asked about, in order of registration and one of each name. -/
structure Registry where
  capabilities : List Capability
  distinct : capabilities.Pairwise fun a b => a.name ≠ b.name

namespace Registry

def empty : Registry := ⟨[], .nil⟩

/-- Of two capabilities of one name the first stays. -/
def register (r : Registry) (c : Capability) : Registry :=
  if h : r.capabilities.any (fun d => d.name == c.name) then r
  else
    ⟨r.capabilities ++ [c], by
      refine List.pairwise_append.2 ⟨r.distinct, List.pairwise_singleton _ _, fun a ha b hb => ?_⟩
      obtain rfl := List.mem_singleton.1 hb
      intro heq
      exact h (List.any_eq_true.2 ⟨a, ha, by simpa using heq⟩)⟩

def ofList (cs : List Capability) : Registry := cs.foldl register empty

def names (r : Registry) : List String := r.capabilities.map Capability.name

end Registry
end ScriptBridge
