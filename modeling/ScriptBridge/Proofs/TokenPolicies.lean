import ScriptBridge.Proofs.Minting

/-! The two token policies. A conversion meets a value and a shape at every place that it enters, and the
policies part only at the places where a reference is expected of a value that is no token. -/
namespace ScriptBridge

/-- A place in a value: the index of an item, then the index of an item of that item, and so on. -/
abbrev Place := List Nat

namespace Wire

/-- What a conversion for a shape meets at a place: the value there and the shape expected of it. -/
def met : Wire → Shape → Place → Option (Wire × Shape)
  | w, shape, [] => some (w, shape)
  | .array items, .array element, i :: p => items[i]?.bind fun w => w.met element p
  | _, _, _ :: _ => none

/-- A value that is neither null nor a token. -/
def isMalformed (w : Wire) : Bool := !w.isNull && w.handle?.isNone

mutual
/-- The places where a reference is expected and a malformed value stands, with that value: depth first
and from left to right. -/
def malformed : Wire → Shape → List (Place × Wire)
  | w, .capability _ => if w.isMalformed then [([], w)] else []
  | .array items, .array element => malformedItems 0 items element
  | _, _ => []

def malformedItems (i : Nat) : List Wire → Shape → List (Place × Wire)
  | [], _ => []
  | w :: rest, element =>
    (w.malformed element).map (fun m => (i :: m.1, m.2)) ++ malformedItems (i + 1) rest element
end

/-- Whether a conversion takes a value at once, without a look at its items and without a reference. -/
def settled : Wire → Shape → Bool
  | .null, _ => true
  | .array _, .array _ => false
  | _, .capability _ => false
  | _, _ => true

/-- The rules of a conversion. -/
inductive Rule : Wire → Shape → Prop
  | items (items : List Wire) (element : Shape) : Rule (.array items) (.array element)
  | reference {w : Wire} (name : String) (hw : w.isNull = false) : Rule w (.capability name)
  | settled {w : Wire} {shape : Shape} (h : w.settled shape = true) : Rule w shape

theorem rule (w : Wire) (shape : Shape) : Rule w shape := by
  cases w with
  | null => exact .settled rfl
  | array items =>
    cases shape with
    | array element => exact .items items element
    | capability name => exact .reference name rfl
    | _ => exact .settled rfl
  | _ =>
    cases shape with
    | capability name => exact .reference name rfl
    | _ => exact .settled rfl

variable {w x : Wire} {shape t : Shape} {p : Place}

theorem malformed_settled (h : w.settled shape = true) : w.malformed shape = [] := by
  cases w <;> cases shape <;> first | rfl | cases h

theorem malformed_reference (w : Wire) (name : String) :
    w.malformed (.capability name) = if w.isMalformed then [([], w)] else [] := by
  cases w <;> rfl

theorem mem_malformedItems {element : Shape} : {ws : List Wire} → {i : Nat} →
    ((p, x) ∈ malformedItems i ws element ↔
      ∃ j w q, ws[j]? = some w ∧ p = (i + j) :: q ∧ (q, x) ∈ w.malformed element)
  | [], i => by simp [malformedItems]
  | w :: rest, i => by
    rw [malformedItems, List.mem_append, mem_malformedItems]
    constructor
    · rintro (hmem | ⟨j, v, q, hv, rfl, hmem⟩)
      · obtain ⟨m, hm, heq⟩ := List.mem_map.1 hmem
        cases heq
        exact ⟨0, w, m.1, rfl, rfl, hm⟩
      · exact ⟨j + 1, v, q, hv, by rw [Nat.add_right_comm, Nat.add_assoc], hmem⟩
    · rintro ⟨_ | j, v, q, hv, rfl, hmem⟩
      · obtain rfl := Option.some.inj hv
        exact .inl (List.mem_map.2 ⟨(q, x), hmem, rfl⟩)
      · exact .inr ⟨j, v, q, hv, by rw [Nat.add_right_comm, Nat.add_assoc], hmem⟩

mutual
/-- The places are listed in the order in which the conversion comes to them. -/
theorem malformed_ordered (w : Wire) (shape : Shape) : (w.malformed shape).Pairwise fun a b => a.1 < b.1 :=
  match w, shape, rule w shape with
  | _, _, .items items element => malformedItems_ordered items element 0
  | w, _, .reference name _ => by
    rw [malformed_reference]
    split
    · exact List.pairwise_singleton _ _
    · exact .nil
  | _, _, .settled h => by
    rw [malformed_settled h]
    exact .nil

theorem malformedItems_ordered (ws : List Wire) (element : Shape) (i : Nat) :
    (malformedItems i ws element).Pairwise fun a b => a.1 < b.1 :=
  match ws with
  | [] => .nil
  | w :: rest => by
    refine List.pairwise_append.2 ⟨List.pairwise_map.2 ?_, malformedItems_ordered rest element (i + 1), ?_⟩
    · exact (malformed_ordered w element).imp fun h => List.cons_lt_cons_iff.2 (.inr ⟨rfl, h⟩)
    · rintro a ha ⟨p, x⟩ hb
      obtain ⟨m, -, rfl⟩ := List.mem_map.1 ha
      obtain ⟨j, v, q, -, rfl, -⟩ := mem_malformedItems.1 hb
      exact List.cons_lt_cons_iff.2 (.inl (by omega))
end

end Wire

/-- What stands at a place of a value. -/
def Native.at? : Native → Place → Option Native
  | v, [] => some v
  | .array items, i :: p => items[i]?.bind fun v => v.at? p
  | _, _ :: _ => none

namespace Native

end Native

namespace Session

/-- The session under another policy for tokens. -/
def under (s : Session) (policy : TokenPolicy) : Session :=
  { s with config := { s.config with tokenPolicy := policy } }

/-- The warning of a malformed value. -/
def repaired (m : Place × Wire) : Event := .repairedToken m.2.malformedText

variable {s : Session} {w x : Wire} {shape t : Shape} {p : Place} {v : Native}

theorem fromWire_settled (h : w.settled shape = true) :
    ∃ v, (∀ s : Session, s.fromWire w shape = ⟨.ok v, []⟩) ∧ v.references = [] := by
  cases w with
  | null => exact ⟨.null, fun s => by rw [fromWire], rfl⟩
  | number x =>
    cases shape with
    | capability name => cases h
    | int => exact ⟨.int x.toInt32, fun _ => rfl, rfl⟩
    | long => exact ⟨.long x.toInt64, fun _ => rfl, rfl⟩
    | _ => exact ⟨.double x, fun _ => rfl, rfl⟩
  | array items =>
    cases shape with
    | array element => cases h
    | capability name => cases h
    | _ => exact ⟨(Wire.array items).passThrough, fun _ => rfl, passThrough_references _⟩
  | bool b =>
    cases shape with
    | capability name => cases h
    | _ => exact ⟨.bool b, fun _ => rfl, rfl⟩
  | text z =>
    cases shape with
    | capability name => cases h
    | _ => exact ⟨.text z, fun _ => rfl, rfl⟩

theorem fromWire_reference (s : Session) (name : String) (hw : w.isNull = false) :
    s.fromWire w (.capability name) = s.referenceOf name w := by
  cases w with
  | null => cases hw
  | _ => rfl

theorem fromWire_items (s : Session) (items : List Wire) (element : Shape) :
    s.fromWire (.array items) (.array element) =
      ⟨(s.fromWireItems items element).result.map .array, (s.fromWireItems items element).events⟩ := by
  rw [fromWire]

theorem referenceOf_malformed (s : Session) (name : String) (hw : w.isMalformed = true) :
    s.referenceOf name w =
      ⟨(s.repair w.malformedText).result.map fun h => .ref (s.mint h name), (s.repair w.malformedText).events⟩ := by
  have hnone : w.handle? = none := Option.isNone_iff_eq_none.1 (Bool.and_eq_true_iff.1 hw).2
  rw [referenceOf, hnone]

theorem referenceOf_token {h : Handle} (s : Session) (name : String) (hw : w.handle? = some h) :
    s.referenceOf name w = ⟨.ok (.ref (s.mint h name)), []⟩ := by
  rw [referenceOf, hw]

theorem handle?_of_not_malformed (hnull : w.isNull = false) (hw : ¬ w.isMalformed = true) :
    ∃ h, w.handle? = some h := by
  rw [Wire.isMalformed, hnull] at hw
  exact Option.ne_none_iff_exists'.1 fun hnone => hw (by rw [hnone]; rfl)

mutual
/-- By the lenient policy no conversion fails, and there is one warning for each malformed value. -/
theorem fromWire_lenient (hs : s.config.tokenPolicy = .lenient) (w : Wire) (shape : Shape) :
    ∃ v, s.fromWire w shape = ⟨.ok v, (w.malformed shape).map repaired⟩ :=
  match w, shape, w.rule shape with
  | _, _, .items items element => by
    obtain ⟨vs, hvs⟩ := fromWireItems_lenient hs items element 0
    exact ⟨.array vs, by rw [fromWire_items, hvs]; rfl⟩
  | w, _, .reference name hnull => by
    rw [fromWire_reference s name hnull, Wire.malformed_reference]
    by_cases hw : w.isMalformed = true
    · rw [referenceOf_malformed s name hw, repair, hs, if_pos hw]
      exact ⟨_, rfl⟩
    · obtain ⟨h, hh⟩ := handle?_of_not_malformed hnull hw
      rw [referenceOf_token s name hh, if_neg hw]
      exact ⟨_, rfl⟩
  | _, _, .settled h => by
    obtain ⟨v, hv, -⟩ := fromWire_settled h
    exact ⟨v, by rw [hv, Wire.malformed_settled h]; rfl⟩

theorem fromWireItems_lenient (hs : s.config.tokenPolicy = .lenient) (ws : List Wire) (element : Shape) (i : Nat) :
    ∃ vs, s.fromWireItems ws element = ⟨.ok vs, (Wire.malformedItems i ws element).map repaired⟩ :=
  match ws with
  | [] => ⟨[], rfl⟩
  | w :: rest => by
    obtain ⟨v, hv⟩ := fromWire_lenient hs w element
    obtain ⟨vs, hvs⟩ := fromWireItems_lenient hs rest element (i + 1)
    refine ⟨v :: vs, ?_⟩
    rw [fromWireItems, hv, hvs, Wire.malformedItems, List.map_append, List.map_map]
    rfl
end

/-- A conversion that the first of some malformed values ends. -/
def endedBy {α : Type} : List (Place × Wire) → Converted α → Converted α
  | [], c => c
  | m :: _, _ => ⟨.error (.malformedToken m.2.malformedText), []⟩

mutual
/-- By the strict policy the first malformed value ends the conversion, and without one it is as by the
lenient policy. -/
theorem fromWire_strict (s : Session) (w : Wire) (shape : Shape) :
    (s.under .strict).fromWire w shape = endedBy (w.malformed shape) ((s.under .lenient).fromWire w shape) :=
  match w, shape, w.rule shape with
  | _, _, .items items element => by
    rw [fromWire_items, fromWire_items, fromWireItems_strict s items element 0, Wire.malformed]
    cases Wire.malformedItems 0 items element <;> rfl
  | w, _, .reference name hnull => by
    rw [fromWire_reference _ name hnull, fromWire_reference _ name hnull, Wire.malformed_reference]
    by_cases hw : w.isMalformed = true
    · rw [referenceOf_malformed _ name hw, if_pos hw]
      rfl
    · obtain ⟨h, hh⟩ := handle?_of_not_malformed hnull hw
      rw [referenceOf_token _ name hh, referenceOf_token _ name hh, if_neg hw]
      rfl
  | _, _, .settled h => by
    obtain ⟨v, hv, -⟩ := fromWire_settled h
    rw [hv, hv, Wire.malformed_settled h]
    rfl

theorem fromWireItems_strict (s : Session) (ws : List Wire) (element : Shape) (i : Nat) :
    (s.under .strict).fromWireItems ws element =
      endedBy (Wire.malformedItems i ws element) ((s.under .lenient).fromWireItems ws element) :=
  match ws with
  | [] => rfl
  | w :: rest => by
    obtain ⟨v, hv⟩ := fromWire_lenient (s := s.under .lenient) rfl w element
    obtain ⟨vs, hvs⟩ := fromWireItems_lenient (s := s.under .lenient) rfl rest element (i + 1)
    rw [fromWireItems, fromWireItems, fromWire_strict s w element, fromWireItems_strict s rest element (i + 1), hv,
      hvs, Wire.malformedItems]
    cases w.malformed element with
    | cons m others => rfl
    | nil => cases Wire.malformedItems (i + 1) rest element <;> rfl
end

/-- A conversion of an array is made item by item. -/
theorem fromWire_items_ok {items : List Wire} {element : Shape}
    (h : (s.fromWire (.array items) (.array element)).result = .ok v) :
    ∃ vs, v = .array vs ∧ (s.fromWireItems items element).result = .ok vs := by
  rw [fromWire_items] at h
  rcases hr : (s.fromWireItems items element).result with e | vs <;> simp only [hr, Except.map] at h
  · cases h
  · exact ⟨vs, (Except.ok.inj h).symm, rfl⟩

theorem fromWire_reference_ok {name : String} (hnull : w.isNull = false)
    (h : (s.fromWire w (.capability name)).result = .ok v) : ∃ r, v = .ref r := by
  rw [fromWire_reference s name hnull] at h
  obtain ⟨a, rfl⟩ := referenceOf_ok h
  exact ⟨_, rfl⟩

-- The first item is a token, and the array that stands where a reference is expected is not entered.
example : Wire.malformed (.array [.text "nsiId=7", .array [.text "x"], .null, .text "nsiId="])
      (.array (.capability "Node")) = [([1], .array [.text "x"]), ([3], .text "nsiId=")] := by
  rfl

end Session
end ScriptBridge
