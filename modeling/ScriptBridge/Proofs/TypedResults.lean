import ScriptBridge.Proofs.RoundTrip

/-! Typed results. A result is read in two stages: the shape of its type converts the wire value and lets pass what
the shape does not speak of, then the type reads what came out. Together they accept exactly the values that a direct
reading of the type accepts. -/
namespace ScriptBridge

/-- The direct reading of a wire value under a type. -/
def Session.Reads (s : Session) : (t : ResultType) → Wire → t.Carrier → Prop
  | .unit, _, _ => True
  | .bool, w, b => w = .bool b
  | .int, w, n => ∃ x, w = .number x ∧ n = x.toInt32
  | .long, w, n => ∃ x, w = .number x ∧ n = x.toInt64
  | .double, w, x => w = .number x
  | .text, w, z => w = .text z
  | .native, w, v => v = w.passThrough
  | .reference, w, r => ∃ h, w.handle? = some h ∧ r = s.mint h Capability.dynamic.name
  | .standIn c, w, x => ∃ h, w.handle? = some h ∧ x.reference = s.mint h c.name
  | .option _, w, none => w = .null
  | .option t, w, some x => w ≠ .null ∧ s.Reads t w x
  | .list t, w, xs => ∃ ws, w = .array ws ∧ List.Forall₂ (s.Reads t) ws xs

namespace Session

variable {s : Session} {w : Wire} {shape : Shape} {v : Native}

/-- A conversion makes null of nothing else. -/
theorem eq_null_of_fromWire (h : (s.fromWire w shape).result = .ok .null) : w = .null := by
  cases w.rule shape with
  | items items element =>
    obtain ⟨vs, hvs, -⟩ := fromWire_items_ok h
    cases hvs
  | reference name hnull =>
    obtain ⟨r, hr⟩ := fromWire_reference_ok hnull h
    cases hr
  | settled hsettled => cases w <;> cases shape <;> first | rfl | cases h | cases hsettled

section Items

variable {t : ResultType} {ws : List Wire} {vs : List Native} {xs : List t.Carrier}

end Items

end Session
end ScriptBridge
