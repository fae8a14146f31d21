import ScriptBridge.Config
import ScriptBridge.Native

/-! Sessions: the native side of a bridge. The generation counts the handle tables that a session has
had; references of any other generation than the current one are refused, and so are those that belong
to another session. -/
namespace ScriptBridge

structure Session where
  id : SessionId
  config : Config
  generation : Nat
  deriving DecidableEq, Repr, Inhabited

namespace Session

/-- A session before its first handle table, when its configuration is valid. -/
def new (id : SessionId) (config : Config) : Except ConfigFault Session :=
  match config.validate with
  | .ok () => .ok ⟨id, config, 0⟩
  | .error f => .error f

def next (s : Session) : Session := { s with generation := s.generation + 1 }

def requireInstalled (s : Session) : Except BridgeError Unit :=
  if s.generation = 0 then .error .notInstalled else .ok ()

/-- Whether a reference may be used in a session, and if not, why. -/
def check (s : Session) (r : Reference) : Except BridgeError Unit :=
  if r.session ≠ s.id then .error (.foreign r.handle)
  else if s.generation = 0 then .error .notInstalled
  else if r.generation ≠ s.generation then .error (.stale r.handle r.generation s.generation)
  else .ok ()

def owns (s : Session) (r : Reference) : Bool :=
  match s.check r with
  | .ok () => true
  | .error _ => false

/-- A reference to a slot of the current table. -/
def mint (s : Session) (h : Handle) (capability : String) : Reference :=
  ⟨s.id, h, capability, s.generation⟩

/-- A reference whose generation is past. -/
def isStale (s : Session) (r : Reference) : Bool := r.generation != s.generation

theorem owns_iff (s : Session) (r : Reference) :
    s.owns r = true ↔ r.session = s.id ∧ s.generation ≠ 0 ∧ r.generation = s.generation := by
  unfold owns check
  by_cases h : r.session = s.id <;> by_cases h0 : s.generation = 0 <;>
    by_cases hg : r.generation = s.generation <;> simp [h, h0, hg]

def inspect (s : Session) : String :=
  "Session \x7b table: " ++ Text.quoted s.config.tableName ++ ", generation: "
    ++ String.ofList (Text.decimal s.generation) ++ " \x7d"

end Session
end ScriptBridge
