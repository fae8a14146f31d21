import ScriptBridge.Proofs.Generations

/-! Where references come from and what retyping leaves of them. However a reference is made, it carries the
session and the generation that made it, and no reading of it under another type changes these. -/
namespace ScriptBridge

variable {σ α : Type} {E : Engine σ}

/-- The reference carries the mark of a session in one of its generations. -/
def Reference.Stamped (r : Reference) (s : Session) : Prop := r.session = s.id ∧ r.generation = s.generation

namespace Session

theorem mint_stamped (s : Session) (h : Handle) (name : String) : (s.mint h name).Stamped s := ⟨rfl, rfl⟩

theorem standIn_stamped (s : Session) (c : Capability) (h : Handle) : (s.standIn c h).reference.Stamped s :=
  ⟨rfl, rfl⟩

mutual
theorem passThrough_references : (w : Wire) → w.passThrough.references = []
  | .null | .bool _ | .number _ | .text _ => rfl
  | .array items => passThroughItems_references items

theorem passThroughItems_references : (ws : List Wire) →
    Native.referencesOfItems (Wire.passThroughItems ws) = []
  | [] => rfl
  | w :: rest => by
    rw [Wire.passThroughItems, Native.referencesOfItems, passThrough_references w,
      passThroughItems_references rest, List.append_nil]
end

theorem referenceOf_ok {s : Session} {name : String} {w : Wire} {v : Native}
    (h : (s.referenceOf name w).result = .ok v) : ∃ a, v = .ref (s.mint a name) := by
  unfold referenceOf at h
  split at h
  · exact ⟨_, (Except.ok.inj h).symm⟩
  · rcases hr : (s.repair w.malformedText).result with e | a <;> simp only [hr, Except.map] at h
    · cases h
    · exact ⟨a, (Except.ok.inj h).symm⟩

private theorem referenceOf_stamped {s : Session} {name : String} {w : Wire} {v : Native}
    (h : (s.referenceOf name w).result = .ok v) : ∀ r ∈ v.references, r.Stamped s := by
  obtain ⟨a, rfl⟩ := referenceOf_ok h
  simp [Native.references, mint_stamped]

theorem fromWireItems_cons_eq_ok {s : Session} {w : Wire} {ws : List Wire} {element : Shape} {vs : List Native} :
    (s.fromWireItems (w :: ws) element).result = .ok vs ↔
      ∃ v rest, vs = v :: rest ∧ (s.fromWire w element).result = .ok v ∧
        (s.fromWireItems ws element).result = .ok rest := by
  rw [fromWireItems]
  rcases hw : (s.fromWire w element).result with e | v
  · simp
  · rcases hrest : (s.fromWireItems ws element).result with e | rest <;> simp [hrest, Except.map, eq_comm]

mutual
/-- The references in a converted value belong to the generation that converted it. -/
theorem fromWire_stamped {s : Session} (w : Wire) (shape : Shape) {v : Native}
    (h : (s.fromWire w shape).result = .ok v) : ∀ r ∈ v.references, r.Stamped s := by
  unfold fromWire at h
  split at h
  · cases h
    simp [Native.references]
  · cases h
    simp [Native.references]
  · cases h
    simp [Native.references]
  · rename_i items element
    rcases hi : (s.fromWireItems items element).result with e | vs <;> simp only [hi, Except.map] at h
    · cases h
    · cases h
      exact fromWireItems_stamped items element hi
  · exact referenceOf_stamped h
  · cases h
    simp [passThrough_references]

theorem fromWireItems_stamped {s : Session} (ws : List Wire) (element : Shape) {vs : List Native}
    (h : (s.fromWireItems ws element).result = .ok vs) :
    ∀ r ∈ Native.referencesOfItems vs, r.Stamped s := by
  match ws with
  | [] =>
    cases h
    simp [Native.referencesOfItems]
  | w :: rest =>
    obtain ⟨v, others, rfl, hw, hrest⟩ := fromWireItems_cons_eq_ok.1 h
    intro r hmem
    rcases List.mem_append.1 hmem with hmem | hmem
    · exact fromWire_stamped w element hw r hmem
    · exact fromWireItems_stamped rest element hrest r hmem
end

end Session

theorem Reference.Stamped.of_slot {q r : Reference} {s : Session} (hr : r.Stamped s) (h : q.slot = r.slot) :
    q.Stamped s := by
  simp only [slot, Slot.mk.injEq] at h
  exact ⟨h.2.2.trans hr.1, h.2.1.trans hr.2⟩

theorem mapM_cons_eq_ok {ε β : Type} {f : α → Except ε β} {x : α} {xs : List α} {ys : List β} :
    (x :: xs).mapM f = .ok ys ↔ ∃ y rest, ys = y :: rest ∧ f x = .ok y ∧ xs.mapM f = .ok rest := by
  rw [List.mapM_cons]
  cases f x with
  | error e =>
    constructor
    · intro h
      cases h
    · rintro ⟨_, _, -, hy, -⟩
      cases hy
  | ok y =>
    cases xs.mapM f with
    | error e =>
      constructor
      · intro h
        cases h
      · rintro ⟨_, _, -, -, hrest⟩
        cases hrest
    | ok rest =>
      constructor
      · intro h
        exact ⟨y, rest, (Except.ok.inj h).symm, rfl, rfl⟩
      · rintro ⟨_, _, rfl, hy, hrest⟩
        cases hy
        cases hrest
        rfl

namespace ResultType

/-- The results of these types hold nothing of what was read. -/
def discards : ResultType → Bool
  | unit => true
  | option t => t.discards
  | list t => t.discards
  | _ => false

/-- An option reads null as none, and anything else under its own type. -/
theorem ofNative_option_eq_ok {t : ResultType} {v : Native} {x : Option t.Carrier} :
    (option t).ofNative v = .ok x ↔ v = .null ∧ x = none ∨ v ≠ .null ∧ ∃ y, x = some y ∧ t.ofNative v = .ok y := by
  by_cases hv : v = .null
  · subst hv
    have hnone : (option t).ofNative .null = .ok none := rfl
    rw [hnone]
    constructor
    · intro h
      exact .inl ⟨rfl, (Except.ok.inj h).symm⟩
    · rintro (⟨-, rfl⟩ | ⟨hv, -⟩)
      · rfl
      · exact absurd rfl hv
  · have hsome : (option t).ofNative v = (t.ofNative v).map some := by
      cases v <;> first | rfl | exact absurd rfl hv
    rw [hsome]
    cases t.ofNative v with
    | error e => simp [hv, Except.map]
    | ok y =>
      constructor
      · intro h
        exact .inr ⟨hv, y, (Except.ok.inj h).symm, rfl⟩
      · rintro (⟨hv', -⟩ | ⟨-, _, rfl, hy⟩)
        · exact absurd hv' hv
        · cases hy
          rfl

private theorem mapM_slots {t : ResultType}
    (ih : ∀ v x, t.ofNative v = .ok x →
      (t.toNative x).references.map Reference.slot = if t.discards then [] else v.references.map Reference.slot)
    (items : List Native) (xs : List t.Carrier) (h : items.mapM t.ofNative = .ok xs) :
    (Native.referencesOfItems (xs.map t.toNative)).map Reference.slot =
      if t.discards then [] else (Native.referencesOfItems items).map Reference.slot := by
  induction items generalizing xs with
  | nil =>
    cases h
    simp [Native.referencesOfItems]
  | cons v rest ihs =>
    obtain ⟨x, xs, rfl, hv, hrest⟩ := mapM_cons_eq_ok.1 h
    rw [List.map_cons, Native.referencesOfItems, Native.referencesOfItems, List.map_append, List.map_append,
      ih v x hv, ihs xs hrest]
    split <;> simp

/-- Reading a value under a type keeps the slots of its references, in order, or drops them all. -/
theorem ofNative_slots (t : ResultType) (v : Native) (x : t.Carrier) (h : t.ofNative v = .ok x) :
    (t.toNative x).references.map Reference.slot =
      if t.discards then [] else v.references.map Reference.slot := by
  induction t generalizing v with
  | unit => rfl
  | native =>
    cases h
    rfl
  | option t ih =>
    rcases ofNative_option_eq_ok.1 h with ⟨rfl, rfl⟩ | ⟨-, y, rfl, hy⟩
    · simp [toNative, Native.references]
    · exact ih v y hy
  | list t ih =>
    cases v with
    | array items =>
      exact mapM_slots ih items x h
    | _ => cases h
  | _ =>
    cases v <;> cases h <;> rfl

end ResultType

namespace Session

private theorem converted_ok {c : Converted α} {d t : Desk σ} {x : α}
    (h : outcome (converted c : Work σ α) d = (.ok x, t)) : c.result = .ok x := by
  rw [outcome_converted] at h
  rcases hc : c.result with e | y <;> rw [hc] at h <;> cases h
  rfl

/-- The references that an evaluation returns belong to the session's generation. -/
theorem evaluateAs_stamped {expression : String} {shape : Shape} {d t : Desk σ} {v : Native}
    (h : outcome (evaluateAs E expression shape) d = (.ok v, t)) : ∀ r ∈ v.references, r.Stamped d.session := by
  rw [evaluateAs, outcome_bind_ok (Work.outcome_session d), outcome_bind_eq_ok] at h
  obtain ⟨x, t₁, hreq, h⟩ := h
  obtain ⟨-, rfl⟩ := Prod.mk.inj ((Work.outcome_require _ d).symm.trans hreq)
  by_cases hv : shape.isVoid
  · simp only [hv, if_true, outcome_bind_eq_ok] at h
    obtain ⟨x, t₂, -, h⟩ := h
    cases h
    simp [Native.references]
  · simp only [hv, Bool.false_eq_true, if_false, outcome_bind_eq_ok] at h
    obtain ⟨w, t₂, hw, s, t₃, hs, h⟩ := h
    cases hs
    rw [← (capture_keeps expression).session_eq hw]
    exact fromWire_stamped w shape (converted_ok h)

theorem bind_stamped {c : Capability} {expression : String} {d t : Desk σ} {b : StandIn c}
    (h : outcome (Session.bind E c expression) d = (.ok (some b), t)) : b.reference.Stamped d.session := by
  rw [Session.bind, outcome_bind_eq_ok] at h
  obtain ⟨v, t₁, hv, h⟩ := h
  cases v with
  | ref r =>
    cases h
    exact (evaluateAs_stamped hv r (by simp [Native.references])).of_slot rfl
  | _ => cases h

end Session

namespace Dispatch

variable {target : Reference} {member : String} {args : List Native}

theorem identity?_references {v : Native} (h : identity? target member args = some v) : v.references = [] := by
  unfold identity? at h
  split at h
  · split at h
    · cases h
      unfold handleNumber
      split <;> rfl
    · cases h
  · split at h <;> cases h
    rfl
  · cases h

/-- The references that a call returns belong to the session's generation. -/
theorem dispatch_stamped {shape : Shape} {d t : Desk σ} {v : Native}
    (h : outcome (dispatch E target member args shape) d = (.ok v, t)) :
    ∀ r ∈ v.references, r.Stamped d.session := by
  rw [dispatch] at h
  simp only [enter] at h
  rw [outcome_bind_ok (Work.outcome_tell _ d)] at h
  rcases hid : identity? target member args with _ | u <;> simp only [hid] at h
  · rw [outcome_bind_ok (Work.outcome_session _)] at h
    rcases hcheck : d.session.check target with e | x <;> rw [hcheck] at h
    · rw [outcome_bind_error (Work.outcome_require _ _)] at h
      cases h
    rw [outcome_bind_ok (Work.outcome_require _ _), outcome_bind_ok (Work.outcome_tellAll _ _),
      outcome_bind_ok (Work.outcome_tell _ _), outcome_bind_ok (Work.outcome_tell _ _), outcome_bind_eq_ok] at h
    obtain ⟨reply, t₁, hsend, h⟩ := h
    have hkeep := Keeps.session_eq (.lift (send_keeps _ _)) hsend
    change t₁.session = d.session at hkeep
    rcases reply with e | _ | w
    · rw [outcome_bind_ok (Work.outcome_tell _ _)] at h
      cases h
    · rw [outcome_bind_ok (Work.outcome_tell _ _)] at h
      cases h
      simp [Native.references]
    · rw [outcome_bind_ok (Work.outcome_tell _ _), outcome_bind_ok (Work.outcome_session _),
        outcome_bind_eq_ok] at h
      obtain ⟨u, t₂, hu, h⟩ := h
      rw [outcome_bind_ok (Work.outcome_tell _ _)] at h
      cases h
      rw [← hkeep]
      exact Session.fromWire_stamped w shape (Session.converted_ok hu)
  · rw [outcome_bind_ok (Work.outcome_tell _ _)] at h
    cases h
    simp [identity?_references hid]

/-- The references in a typed result belong to the session's generation. -/
theorem call_stamped {t : ResultType} {d u : Desk σ} {x : t.Carrier}
    (h : outcome (call E target member args t) d = (.ok x, u)) :
    ∀ r ∈ (t.toNative x).references, r.Stamped d.session := by
  rw [call, outcome_bind_eq_ok] at h
  obtain ⟨v, t₁, hv, h⟩ := h
  have hx : t.ofNative v = .ok x := by
    rw [Work.outcome_require] at h
    rcases hv : t.ofNative v with e | y <;> rw [hv] at h <;> cases h
    rfl
  intro q hq
  have hslot := List.mem_map_of_mem (f := Reference.slot) hq
  rw [ResultType.ofNative_slots t v x hx] at hslot
  split at hslot
  · cases hslot
  · obtain ⟨r, hr, hrq⟩ := List.mem_map.1 hslot
    exact (dispatch_stamped hv r hr).of_slot hrq.symm

end Dispatch
end ScriptBridge
