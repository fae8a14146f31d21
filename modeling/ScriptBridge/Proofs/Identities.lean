import ScriptBridge.Proofs.Gating

/-! Identity of references. References are the same when they name the same slot of the same table of the same session.
All that asks for identity goes by this one relation: equality of references, of native values and of stand-ins, and the
members that a call answers without its engine. No state takes part in it, so that a run of the world changes nothing
about it. -/
namespace ScriptBridge

-- Powers are those of the core library, whatever algebra is there besides.
attribute [local instance (high)] instPowNat

variable {σ : Type} {E : Engine σ}

namespace Reference

theorem same_iff (a b : Reference) : a.same b = true ↔ a.slot = b.slot := by
  rw [same, beq_iff_eq]

theorem same_equivalence : Equivalence fun a b : Reference => a.same b = true where
  refl a := (same_iff a a).2 rfl
  symm h := (same_iff _ _).2 ((same_iff _ _).1 h).symm
  trans h k := (same_iff _ _).2 (((same_iff _ _).1 h).trans ((same_iff _ _).1 k))

theorem same_comm (a b : Reference) : a.same b = b.same a :=
  Bool.eq_iff_iff.2 ⟨same_equivalence.symm, same_equivalence.symm⟩

/-- Whether references are the same is a matter of their slots alone. -/
theorem same_congr {a a' b b' : Reference} (ha : a'.slot = a.slot) (hb : b'.slot = b.slot) : a'.same b' = a.same b := by
  rw [same, same, ha, hb]

theorem hashKey_eq_of_slot {a b : Reference} (h : a.slot = b.slot) : a.hashKey = b.hashKey :=
  congrArg (fun s => (s.handle, s.generation)) h

end Reference

namespace Native

theorem same_ref (a b : Reference) : (ref a).same (ref b) = a.same b := by rw [same]

/-- A reference is never the same as a value that is none. -/
theorem same_ref_of_reference?_eq_none {v : Native} (h : v.reference? = none) (a : Reference) :
    (ref a).same v = false ∧ v.same (ref a) = false := by
  cases v with
  | ref r => cases h
  | _ => exact ⟨by simp [same], by simp [same]⟩

/-- A whole number in 32 bits where it fits, and in 64 bits elsewhere. -/
def Counts (v : Native) (n : Nat) : Prop :=
  if n < 2 ^ (31 : Nat) then ∃ k : Int32, v = .int k ∧ k.toInt = n else ∃ k : Int64, v = .long k ∧ k.toInt = n

end Native

namespace Dispatch

/-- No handle is too large for the number that it is answered as. -/
theorem handleNumber_counts (h : Handle) : (handleNumber h).Counts h.index := by
  unfold Native.Counts handleNumber
  split
  · next hsmall => exact ⟨_, rfl, Int32.toInt_ofNat_of_lt hsmall⟩
  · have hbound : h.index < 2 ^ (32 : Nat) := h.raw.toNat_lt
    exact ⟨_, rfl, Int64.toInt_ofNat_of_lt (by omega)⟩

variable {target : Reference} {member : String} {args : List Native}

/-- A question for the identity of a reference is answered on the spot. -/
theorem dispatch_identified {v : Native} (hid : identity? target member args = some v) (shape : Shape) (d : Desk σ) :
    outcome (dispatch E target member args shape) d = (.ok v,
      { d with trail := d.trail ++ [.event (.phase .build member target.handle), .event (.phase .return member target.handle)] }) := by
  simp [dispatch, enter, hid, outcome_bind, outcome_map, Except.map]

theorem identity?_equals (a : Reference) (v : Native) :
    identity? a "equals" [v] = some (.bool ((Native.ref a).same v)) := by
  cases v with
  | ref r =>
    rw [Native.same_ref, Reference.same_comm]
    rfl
  | _ => rw [(Native.same_ref_of_reference?_eq_none rfl a).1]; rfl

end Dispatch

namespace World

variable {w : World σ} {i : SessionId}

/-- A session of the world answers a call on a reference by itself: nothing is sent and nothing changes. -/
def Answers (E : Engine σ) (w : World σ) (i : SessionId) (r : Reference) (member : String) (args : List Native)
    (v : Native) : Prop :=
  ∀ shape, ∃ o, w.run E i (fun F => (Dispatch.dispatch F r member args shape).run) = some o ∧ o.result = .ok v ∧
    o.requests = [] ∧ o.world = w

/-- Every session answers a question for identity by itself, whatever has become of its engine, and be the reference its
own or not. -/
theorem Seated.answers (hw : w.Seated) {s : Seat} (hs : w.seat? i = some s) {r : Reference} {member : String}
    {args : List Native} {v : Native} (hid : Dispatch.identity? r member args = some v) :
    Answers E w i r member args v := by
  obtain ⟨b, hb⟩ : ∃ b, w.berth? s.engine = some b := ⟨_, List.getElem?_eq_getElem (hw.berthed hs)⟩
  exact fun shape => ⟨_, run_unmoved hs hb (Dispatch.dispatch_identified hid shape _), rfl, rfl, rfl⟩

/-- At any two moments of a run, and in any sessions, all that asks whether references are the same agrees on one
equivalence, which no change of type and nothing that the sessions do takes part in. No value that is not a reference is
the same as one, and references that are the same have one hash and answer with one number, their handle. -/
theorem identity_is_one_equivalence {w v : World σ} (hw : Steps E empty w) (hlater : Steps E w v) {i j : SessionId}
    {s t : Seat} (hs : w.seat? i = some s) (ht : v.seat? j = some t) :
    Equivalence (fun a b : Reference => a.same b = true) ∧
      (∀ a b a' b', Retyped a a' → Retyped b b' →
        a'.same b' = a.same b ∧ (Native.ref a').same (.ref b') = a.same b ∧
        Answers E w i a' "equals" [.ref b'] (.bool (a.same b)) ∧
        Answers E v j a' "equals" [.ref b'] (.bool (a.same b))) ∧
      (∀ (c : Capability) (x y : StandIn c) a b, Retyped a x.reference → Retyped b y.reference → x.same y = a.same b) ∧
      (∀ (a : Reference) (x : Native), x.reference? = none → (Native.ref a).same x = false ∧ x.same (.ref a) = false ∧
        Answers E w i a "equals" [x] (.bool false) ∧ Answers E v j a "equals" [x] (.bool false)) ∧
      ∀ a b : Reference, a.same b = true → a.hashKey = b.hashKey ∧ ∃ n : Native, n.Counts a.handle.index ∧
        ∀ member, member = "getNsiId" ∨ member = "hashCode" →
          Answers E w i a member [] n ∧ Answers E v j b member [] n := by
  have hseated : w.Seated := hw.seated .empty
  have hseated' : v.Seated := hlater.seated hseated
  refine ⟨Reference.same_equivalence, fun a b a' b' ha hb => ?_, fun c x y a b ha hb => ?_, fun a x hx => ?_,
    fun a b hab => ?_⟩
  · have hsame : a'.same b' = a.same b := Reference.same_congr ha.slot_eq hb.slot_eq
    have hnative : (Native.ref a').same (.ref b') = a.same b := (Native.same_ref a' b').trans hsame
    have hid : Dispatch.identity? a' "equals" [.ref b'] = some (.bool (a.same b)) := by
      rw [Dispatch.identity?_equals, hnative]
    exact ⟨hsame, hnative, hseated.answers hs hid, hseated'.answers ht hid⟩
  · exact Reference.same_congr ha.slot_eq hb.slot_eq
  · obtain ⟨hleft, hright⟩ := Native.same_ref_of_reference?_eq_none hx a
    have hid : Dispatch.identity? a "equals" [x] = some (.bool false) := by
      rw [Dispatch.identity?_equals, hleft]
    exact ⟨hleft, hright, hseated.answers hs hid, hseated'.answers ht hid⟩
  · have hslot := (Reference.same_iff a b).1 hab
    have hhandle : a.handle = b.handle := congrArg Reference.Slot.handle hslot
    have hid (r : Reference) (member : String) (hmember : member = "getNsiId" ∨ member = "hashCode") :
        Dispatch.identity? r member [] = some (Dispatch.handleNumber r.handle) := if_pos hmember
    refine ⟨Reference.hashKey_eq_of_slot hslot, Dispatch.handleNumber a.handle, Dispatch.handleNumber_counts a.handle,
      fun member hmember => ⟨hseated.answers hs (hid a member hmember), ?_⟩⟩
    rw [hhandle]
    exact hseated'.answers ht (hid b member hmember)

/-- The largest handle of a session that has installed nothing, retyped, once its engine is gone. -/
theorem identity_is_one_equivalence_abandoned :
    let E : Engine Unit := ⟨fun _ x => ⟨.ok .null, x, []⟩, fun _ x => ⟨.ok (), x, []⟩⟩
    let seats : List Seat := [⟨⟨0, {}, 0⟩, 0, .weak⟩]
    let r : Reference := (⟨0, {}, 0⟩ : Session).mint ⟨4294967295⟩ "Node"
    let foreign : Reference := (⟨1, {}, 0⟩ : Session).mint ⟨4294967295⟩ "Node"
    Steps E empty ⟨[⟨(), true⟩], seats⟩ ∧ Steps E ⟨[⟨(), true⟩], seats⟩ ⟨[⟨(), false⟩], seats⟩ ∧
      Answers E ⟨[⟨(), false⟩], seats⟩ 0 (r.withCapability "Element") "equals" [.ref r] (.bool true) ∧
      Answers E ⟨[⟨(), false⟩], seats⟩ 0 foreign "equals" [.ref r] (.bool false) ∧
      Answers E ⟨[⟨(), false⟩], seats⟩ 0 r "hashCode" [] (.long 4294967295) := by
  intro E seats r foreign
  have hfault : Config.fault? {} = none := by decide
  have hnew : Session.new 0 {} = .ok ⟨0, {}, 0⟩ := by simp [Session.new, Config.validate, hfault]
  have hengine : Step E empty ⟨[⟨(), true⟩], []⟩ := .addEngine _ ()
  have hsession : Step E ⟨[⟨(), true⟩], []⟩ ⟨[⟨(), true⟩], seats⟩ :=
    .addSession Nat.one_pos (show World.addSession _ 0 .weak {} = .ok (_, 0) by simp [World.addSession, hnew, seats])
  have hreach : Steps E empty ⟨[⟨(), true⟩], seats⟩ := (Relation.ReflTransGen.single hengine).tail hsession
  have hdrop : Steps E ⟨[⟨(), true⟩], seats⟩ ⟨[⟨(), false⟩], seats⟩ := .single (.dropEngine _ 0)
  have hseat : (⟨[⟨(), true⟩], seats⟩ : World Unit).seat? 0 = some ⟨⟨0, {}, 0⟩, 0, .weak⟩ := rfl
  have hseat' : (⟨[⟨(), false⟩], seats⟩ : World Unit).seat? 0 = some ⟨⟨0, {}, 0⟩, 0, .weak⟩ := rfl
  obtain ⟨-, hequals, -, -, hnumber⟩ := identity_is_one_equivalence hreach hdrop hseat hseat'
  obtain ⟨-, n, hcounts, hanswers⟩ := hnumber r r (by decide)
  obtain ⟨k, rfl, hk⟩ : ∃ k : Int64, n = .long k ∧ k.toInt = 4294967295 := hcounts
  obtain rfl : k = 4294967295 := Int64.toInt_inj.1 hk
  exact ⟨hreach, hdrop, (hequals r r _ r (.withCapability .copy "Element") .copy).2.2.2,
    (hequals foreign r foreign r .copy .copy).2.2.2, (hanswers "hashCode" (.inr rfl)).2⟩

end World
end ScriptBridge
