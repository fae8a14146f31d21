import ScriptBridge.Proofs.Requests
import ScriptBridge.Proofs.Worlds

/-! The gate in front of the engine. Whether a reference is let through depends on the generation that
minted it and on the generation that its session has now, over all runs of a world and whatever the
reference has been retyped to. -/
namespace ScriptBridge

variable {σ : Type}

/-- One reference is another after copies and changes of type. -/
inductive Retyped (r : Reference) : Reference → Prop
  | copy : Retyped r r
  | withCapability {q : Reference} (h : Retyped r q) (name : String) : Retyped r (q.withCapability name)
  | ofReference {q : Reference} (h : Retyped r q) (c : Capability) : Retyped r (StandIn.ofReference c q).reference
  | query {c : Capability} {s : StandIn c} (h : Retyped r s.reference) (d : Capability) :
      Retyped r (s.query d).reference
  /-- read as part of a value of some type -/
  | ofNative {t : ResultType} {v : Native} {x : t.Carrier} {q q' : Reference} {k : Nat} (h : Retyped r q)
      (hq : v.references[k]? = some q) (hv : t.ofNative v = .ok x) (hx : (t.toNative x).references[k]? = some q') :
      Retyped r q'

theorem Retyped.slot_eq {r q : Reference} (h : Retyped r q) : q.slot = r.slot := by
  induction h with
  | copy => rfl
  | withCapability _ _ ih => exact ih
  | ofReference _ _ ih => exact ih
  | query _ _ ih => exact ih
  | @ofNative t v x q q' k _ hq hv hx ih =>
    have hk := congrArg (·[k]?) (t.ofNative_slots v x hv)
    simp only [List.getElem?_map, hx, Option.map_some] at hk
    split at hk
    · simp at hk
    · rw [List.getElem?_map, hq] at hk
      exact (Option.some.inj hk).trans ih

namespace World

/-- A session of a world mints a reference, which may leave the world another one. -/
inductive Minted (E : Engine σ) (w : World σ) (i : SessionId) : Reference → World σ → Prop
  | slot {s : Seat} (hs : w.seat? i = some s) (h : Handle) (name : String) : Minted E w i (s.session.mint h name) w
  | standIn {s : Seat} (hs : w.seat? i = some s) (c : Capability) (h : Handle) :
      Minted E w i (s.session.standIn c h).reference w
  | root {s : Seat} (hs : w.seat? i = some s) (c : Capability) : Minted E w i (s.session.rootStandIn c).reference w
  | converted {s : Seat} (hs : w.seat? i = some s) {value : Wire} {shape : Shape} {v : Native} {r : Reference}
      (hv : (s.session.fromWire value shape).result = .ok v) (hr : r ∈ v.references) : Minted E w i r w
  | bound {c : Capability} {expression : String} {o : Outcome σ (Except BridgeError (Option (StandIn c)))}
      {b : StandIn c} (h : w.run E i (fun F => (Session.bind F c expression).run) = some o)
      (hb : o.result = .ok (some b)) : Minted E w i b.reference o.world
  | evaluated {expression : String} {shape : Shape} {o : Outcome σ (Except BridgeError Native)} {v : Native}
      {r : Reference} (h : w.run E i (fun F => (Session.evaluateAs F expression shape).run) = some o)
      (hv : o.result = .ok v) (hr : r ∈ v.references) : Minted E w i r o.world
  | called {target : Reference} {member : String} {args : List Native} {t : ResultType}
      {o : Outcome σ (Except BridgeError t.Carrier)} {x : t.Carrier} {r : Reference}
      (h : w.run E i (fun F => (Dispatch.call F target member args t).run) = some o) (hx : o.result = .ok x)
      (hr : r ∈ (t.toNative x).references) : Minted E w i r o.world

variable {E : Engine σ} {w v : World σ} {i : SessionId} {r q : Reference}

/-- A reference carries the generation that its session had when it was minted. -/
theorem Minted.stamped (h : Minted E w i r v) : ∃ s, w.seat? i = some s ∧ r.Stamped s.session := by
  cases h with
  | slot hs h name => exact ⟨_, hs, Session.mint_stamped _ h name⟩
  | standIn hs c h => exact ⟨_, hs, Session.standIn_stamped _ c h⟩
  | root hs c => exact ⟨_, hs, Session.standIn_stamped _ c Handle.root⟩
  | converted hs hv hr => exact ⟨_, hs, Session.fromWire_stamped _ _ hv r hr⟩
  | bound h hb =>
    obtain ⟨s, b, hs, hberth⟩ := exists_of_run h
    rw [run_eq hs hberth] at h
    cases h
    exact ⟨s, hs, Session.bind_stamped (Prod.ext hb rfl)⟩
  | evaluated h hv hr =>
    obtain ⟨s, b, hs, hberth⟩ := exists_of_run h
    rw [run_eq hs hberth] at h
    cases h
    exact ⟨s, hs, Session.evaluateAs_stamped (Prod.ext hv rfl) r hr⟩
  | called h hx hr =>
    obtain ⟨s, b, hs, hberth⟩ := exists_of_run h
    rw [run_eq hs hberth] at h
    cases h
    exact ⟨s, hs, Dispatch.call_stamped (Prod.ext hx rfl) r hr⟩

theorem Minted.before (h : Minted E w i r v) : w.Before v := by
  cases h with
  | bound h => exact run_before (fun F d => .of_eq (Session.bind_keeps _ _ d)) h
  | evaluated h => exact run_before (fun F d => .of_eq (Session.evaluateAs_keeps _ _ d)) h
  | called h => exact run_before (fun F d => .of_eq (Dispatch.call_keeps _ _ _ _ d)) h
  | _ => exact .refl w

theorem Minted.seated (h : Minted E w i r v) (hw : w.Seated) : v.Seated := by
  cases h with
  | bound h => exact run_seated (fun F d => .of_eq (Session.bind_keeps _ _ d)) h hw
  | evaluated h => exact run_seated (fun F d => .of_eq (Session.evaluateAs_keeps _ _ d)) h hw
  | called h => exact run_seated (fun F d => .of_eq (Dispatch.call_keeps _ _ _ _ d)) h hw
  | _ => exact hw

def Outcome.requests {α : Type} (o : Outcome σ α) : List Request := o.trail.filterMap Mark.request?

/-- The session answers for the reference by itself: nothing is sent and nothing changes. -/
structure Refused (E : Engine σ) (w : World σ) (i : SessionId) (q : Reference) (e : BridgeError) : Prop where
  dispatch : ∀ member args shape, Dispatch.identity? q member args = none →
    ∃ o, w.run E i (fun F => (Dispatch.dispatch F q member args shape).run) = some o ∧
      o.result = .error e ∧ o.requests = [] ∧ o.world = w
  dispatchOrNull : ∀ member args shape, Dispatch.identity? q member args = none →
    ∃ o, w.run E i (fun F => (Dispatch.dispatchOrNull F q member args shape).run) = some o ∧
      o.result = .ok .null ∧ o.requests = [] ∧ o.world = w
  call : ∀ member args t, Dispatch.identity? q member args = none →
    ∃ o, w.run E i (fun F => (Dispatch.call F q member args t).run) = some o ∧
      o.result = .error e ∧ o.requests = [] ∧ o.world = w
  probe : ∀ registry, ∃ o, w.run E i (fun F => Probe.supported F registry q) = some o ∧
    o.result = [] ∧ o.requests = [] ∧ o.world = w

/-- Every call of the reference makes one request, and every probe one for each capability. -/
structure LetThrough (E : Engine σ) (w : World σ) (i : SessionId) (q : Reference) : Prop where
  dispatch : ∀ member args shape, Dispatch.identity? q member args = none →
    ∃ o, w.run E i (fun F => (Dispatch.dispatch F q member args shape).run) = some o ∧ o.requests.length = 1
  dispatchOrNull : ∀ member args shape, Dispatch.identity? q member args = none →
    ∃ o, w.run E i (fun F => (Dispatch.dispatchOrNull F q member args shape).run) = some o ∧
      o.requests.length = 1
  call : ∀ member args t, Dispatch.identity? q member args = none →
    ∃ o, w.run E i (fun F => (Dispatch.call F q member args t).run) = some o ∧ o.requests.length = 1
  probe : ∀ registry, ∃ o, w.run E i (fun F => Probe.supported F registry q) = some o ∧
    o.requests.length = registry.capabilities.length

theorem Refused.not_letThrough {e : BridgeError} (h : Refused E w i q e) : ¬ LetThrough E w i q := by
  intro k
  obtain ⟨o, ho, -, hnone, -⟩ := h.dispatch "" [] .void (by simp [Dispatch.identity?])
  obtain ⟨o', ho', hone⟩ := k.dispatch "" [] .void (by simp [Dispatch.identity?])
  obtain rfl : o = o' := Option.some.inj (ho.symm.trans ho')
  simp [hnone] at hone

private theorem modify_eq_self {α : Type} {l : List α} {k : Nat} {f : α → α} {x : α} (hx : l[k]? = some x)
    (hf : f x = x) : l.modify k f = l := by
  refine List.ext_getElem? fun j => ?_
  rw [List.getElem?_modify]
  by_cases hkj : k = j
  · subst hkj
    simp [hx, hf]
  · simp [hkj]

theorem setState_self {k : Nat} {b : Berth σ} (hb : w.berth? k = some b) : w.setState k b.state = w := by
  rw [setState, modify_eq_self hb rfl]

theorem setSession_self {s : Seat} (hs : w.seat? i = some s) : w.setSession i s.session = w := by
  rw [setSession, modify_eq_self hs rfl]

/-- A run that leaves the session and the engine's state as they are leaves the world as it is. -/
theorem run_unmoved {α : Type} {s : Seat} {b : Berth σ} (hs : w.seat? i = some s)
    (hb : w.berth? s.engine = some b) {a : Engine σ → StateM (Desk σ) α} {x : α} {marks : List Mark}
    (ha : (a (w.connection E s)).run ⟨s.session, b.state, []⟩ = (x, ⟨s.session, b.state, marks⟩)) :
    w.run E i a = some ⟨x, marks, w⟩ := by
  rw [run_eq hs hb, ha, setState_self hb, setSession_self hs]

/-- A reference that fails the session's check is refused with the reason that the check gives. -/
theorem refused_of_check {s : Seat} {b : Berth σ} {e : BridgeError} (hs : w.seat? i = some s)
    (hb : w.berth? s.engine = some b) (he : s.session.check q = .error e) : Refused E w i q e where
  dispatch member args shape hid :=
    ⟨_, run_unmoved hs hb (Dispatch.dispatch_refused hid he shape), rfl, rfl, rfl⟩
  dispatchOrNull member args shape hid :=
    ⟨_, run_unmoved hs hb (Dispatch.dispatchOrNull_refused hid he shape), rfl, rfl, rfl⟩
  call member args t hid :=
    ⟨_, run_unmoved hs hb (Dispatch.call_refused hid he t), rfl, rfl, rfl⟩
  probe registry :=
    ⟨_, run_unmoved hs hb ((Probe.supported_run registry q _).trans (by rw [he])), rfl, rfl, rfl⟩

/-- A reference that passes the session's check is let through. -/
theorem letThrough_of_check {s : Seat} {b : Berth σ} (hs : w.seat? i = some s)
    (hb : w.berth? s.engine = some b) (he : s.session.check q = .ok ()) : LetThrough E w i q where
  dispatch member args shape hid :=
    ⟨_, run_eq hs hb _, congrArg List.length (Dispatch.dispatch_sent hid he shape)⟩
  dispatchOrNull member args shape hid :=
    ⟨_, run_eq hs hb _, congrArg List.length ((Dispatch.dispatchOrNull_requests shape _).trans
      (Dispatch.dispatch_sent hid he shape))⟩
  call member args t hid :=
    ⟨_, run_eq hs hb _, congrArg List.length ((Dispatch.call_requests t _).trans
      (Dispatch.dispatch_sent hid he t.shape))⟩
  probe registry :=
    ⟨_, run_eq hs hb _, by
      rw [Probe.supported_run, he]
      exact (congrArg List.length (Probe.probeAll_requests _ _ _)).trans (by simp [Desk.requests])⟩

/-- What becomes of a reference, by its generation and by that of its session. -/
theorem gate {s : Seat} (hw : w.Seated) (hs : w.seat? i = some s) (hid : q.session = s.session.id) :
    (LetThrough E w i q ↔ 1 ≤ q.generation ∧ s.session.generation = q.generation) ∧
      (s.session.generation = 0 → Refused E w i q .notInstalled) ∧
      (s.session.generation ≠ 0 → s.session.generation ≠ q.generation →
        Refused E w i q (.stale q.handle q.generation s.session.generation)) := by
  obtain ⟨b, hb⟩ : ∃ b, w.berth? s.engine = some b := ⟨_, List.getElem?_eq_getElem (hw.berthed hs)⟩
  have hnone (h0 : s.session.generation = 0) : Refused E w i q .notInstalled :=
    refused_of_check hs hb (by simp [Session.check, hid, h0])
  have hstale (h0 : s.session.generation ≠ 0) (hg : s.session.generation ≠ q.generation) :
      Refused E w i q (.stale q.handle q.generation s.session.generation) :=
    refused_of_check hs hb (by simp [Session.check, hid, h0, Ne.symm hg])
  refine ⟨⟨fun h => ?_, fun ⟨h1, hg⟩ => ?_⟩, hnone, hstale⟩
  · by_cases h0 : s.session.generation = 0
    · exact absurd h (hnone h0).not_letThrough
    · by_cases hg : s.session.generation = q.generation
      · exact ⟨by omega, hg⟩
      · exact absurd h (hstale h0 hg).not_letThrough
  · exact letThrough_of_check hs hb (by simp [Session.check, hid, hg, Nat.pos_iff_ne_zero.1 h1])

/-- A reference is let through exactly while its session is in the generation that minted it, once there
has been an installation. Otherwise it is refused without a request, for the reason that the generation
gives, and it stays refused whatever happens next. -/
theorem letThrough_iff_generation {w₀ w₁ w₂ : World σ} {i : SessionId} {r q : Reference} {s₀ : Seat}
    (hreach : Steps E World.empty w₀) (hseat : w₀.seat? i = some s₀) (hmint : Minted E w₀ i r w₁)
    (hretyped : Retyped r q) (hsteps : Steps E w₁ w₂) :
    ∃ s, w₂.seat? i = some s ∧
      (LetThrough E w₂ i q ↔ 1 ≤ s₀.session.generation ∧ s.session.generation = s₀.session.generation) ∧
      (s.session.generation = 0 → Refused E w₂ i q .notInstalled) ∧
      (s.session.generation ≠ 0 → s.session.generation ≠ s₀.session.generation →
        Refused E w₂ i q (.stale r.handle s₀.session.generation s.session.generation)) ∧
      ∀ w₃, Steps E w₂ w₃ → ¬ LetThrough E w₂ i q → ¬ LetThrough E w₃ i q := by
  have hseated : w₂.Seated := hsteps.seated (hmint.seated (hreach.seated .empty))
  obtain ⟨s₀', hs₀', hstamp⟩ := hmint.stamped
  obtain rfl : s₀ = s₀' := Option.some.inj (hseat.symm.trans hs₀')
  have hslot := hretyped.slot_eq
  have hq : q.Stamped s₀.session := hstamp.of_slot hslot
  have hhandle : q.handle = r.handle := congrArg Reference.Slot.handle hslot
  obtain ⟨s, hs, hbefore⟩ := hmint.before.trans hsteps.before i s₀ hseat
  have hgate := gate (E := E) hseated hs (hq.1.trans hbefore.id.symm)
  rw [hq.2, hhandle] at hgate
  refine ⟨s, hs, hgate.1, hgate.2.1, hgate.2.2, fun w₃ hlater hshut hopen => hshut ?_⟩
  obtain ⟨t, ht, hst⟩ := hlater.before i s hs
  have hgate' := gate (E := E) (hlater.seated hseated) ht (hq.1.trans (hst.id.trans hbefore.id).symm)
  rw [hq.2] at hgate'
  have hlate := hgate'.1.1 hopen
  have := hbefore.generation
  have := hst.generation
  exact hgate.1.2 ⟨hlate.1, by omega⟩

/-- The root of the first table, retyped, after a second installation. -/
theorem letThrough_iff_generation_reinstalled :
    let E : Engine Unit := ⟨fun _ x => ⟨.ok .null, x, []⟩, fun _ x => ⟨.ok (), x, []⟩⟩
    let first : World Unit := ⟨[⟨(), true⟩], [⟨⟨0, {}, 1⟩, 0, .weak⟩]⟩
    let second : World Unit := ⟨[⟨(), true⟩], [⟨⟨0, {}, 2⟩, 0, .weak⟩]⟩
    let root : StandIn Capability.dynamic := (⟨0, {}, 1⟩ : Session).rootStandIn Capability.dynamic
    let retyped := root.query ⟨"Button", "Button", ["click"]⟩
    Steps E empty first ∧ Minted E first 0 root.reference first ∧ Retyped root.reference retyped.reference ∧
      Steps E first second ∧ Refused E second 0 retyped.reference (.stale Handle.root 1 2) := by
  intro E first second root retyped
  have hfault : Config.fault? {} = none := by decide
  have hnew : Session.new 0 {} = .ok ⟨0, {}, 0⟩ := by simp [Session.new, Config.validate, hfault]
  have hengine : Step E empty ⟨[⟨(), true⟩], []⟩ := .addEngine _ ()
  have hsession : Step E ⟨[⟨(), true⟩], []⟩ ⟨[⟨(), true⟩], [⟨⟨0, {}, 0⟩, 0, .weak⟩]⟩ :=
    .addSession Nat.one_pos (show World.addSession _ 0 .weak {} = .ok (_, 0) by simp [World.addSession, hnew])
  have hinstall : Step E ⟨[⟨(), true⟩], [⟨⟨0, {}, 0⟩, 0, .weak⟩]⟩ first :=
    .act (show World.run E _ 0 (fun F => modify (Operation.install.perform F)) = some ⟨(), _, first⟩ from rfl)
  have hreinstall : Step E first second :=
    .act (show World.run E _ 0 (fun F => modify (Operation.install.perform F)) = some ⟨(), _, second⟩ from rfl)
  have hfirst : Steps E empty first := ((Relation.ReflTransGen.single hengine).tail hsession).tail hinstall
  have hseat : first.seat? 0 = some ⟨⟨0, {}, 1⟩, 0, .weak⟩ := rfl
  have hmint : Minted E first 0 root.reference first := .root hseat Capability.dynamic
  have hretyped : Retyped root.reference retyped.reference := .query .copy _
  obtain ⟨s, hs, -, -, hstale, -⟩ := letThrough_iff_generation hfirst hseat hmint hretyped (.single hreinstall)
  obtain rfl : _ = s := Option.some.inj hs
  exact ⟨hfirst, hmint, hretyped, .single hreinstall, hstale (by decide) (by decide)⟩

end World
end ScriptBridge
