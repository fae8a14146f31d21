import ScriptBridge.Dispatch
import ScriptBridge.Probe
import ScriptBridge.Proofs.Outcome

/-! What the actions of a session do to the session itself. Only an installation touches it, and all that
an installation does is to raise the generation. -/
namespace ScriptBridge

variable {σ α β : Type} {E : Engine σ}

/-- The session is the same after an action as before it. -/
def Keeps (a : Work σ α) : Prop := ∀ d, (outcome a d).2.session = d.session

namespace Keeps

theorem session_eq {a : Work σ α} (ha : Keeps a) {d t : Desk σ} {r : Except BridgeError α}
    (h : outcome a d = (r, t)) : t.session = d.session := by
  simpa only [h] using ha d

theorem pure (x : α) : Keeps (pure x : Work σ α) := fun _ => rfl

theorem throw (e : BridgeError) : Keeps (throw e : Work σ α) := fun _ => rfl

theorem session : Keeps (Work.session : Work σ Session) := fun _ => rfl

theorem tell (e : Event) : Keeps (Work.tell e : Work σ Unit) := fun _ => rfl

theorem tellAll (es : List Event) : Keeps (Work.tellAll es : Work σ Unit) := fun _ => rfl

theorem require (c : Except BridgeError α) : Keeps (Work.require c : Work σ α) := fun d => by simp

theorem lift {a : StateM (Desk σ) α} (h : ∀ d, (a.run d).2.session = d.session) :
    Keeps (monadLift a : Work σ α) := h

theorem evaluate (script : String) : Keeps (Work.evaluate E script) := fun d => by
  rw [Work.outcome_evaluate]
  rfl

theorem execute (script : String) : Keeps (Work.execute E script) := fun d => by
  rw [Work.outcome_execute]
  rfl

theorem bind {a : Work σ α} {f : α → Work σ β} (ha : Keeps a) (hf : ∀ x, Keeps (f x)) : Keeps (a >>= f) := by
  intro d
  rw [outcome_bind]
  rcases h : outcome a d with ⟨e | x, t⟩
  · exact ha.session_eq h
  · exact (hf x t).trans (ha.session_eq h)

theorem tryCatch {a : Work σ α} {f : BridgeError → Work σ α} (ha : Keeps a) (hf : ∀ e, Keeps (f e)) :
    Keeps (tryCatch a f) := by
  intro d
  rw [outcome_tryCatch]
  rcases h : outcome a d with ⟨e | x, t⟩
  · exact (hf e t).trans (ha.session_eq h)
  · exact ha.session_eq h

end Keeps

namespace Session

theorem tryCapture_run (statement : String) (d : Desk σ) :
    (tryCapture E statement).run d =
      Work.answered (.evaluate (d.session.captureScript statement))
        (E.evaluate (d.session.captureScript statement) d.state) d := rfl

theorem tryRunVoid_run (statement : String) (d : Desk σ) :
    (tryRunVoid E statement).run d = match d.session.config.voidCalls with
      | .execute => Work.answered (.execute (statement ++ ";")) (E.execute (statement ++ ";") d.state) d
      | .evaluate =>
        ((E.evaluate (statement ++ ";") d.state).result.map fun _ => (),
          (Work.answered (.evaluate (statement ++ ";")) (E.evaluate (statement ++ ";") d.state) d).2) := by
  change StateT.run (match d.session.config.voidCalls with
    | .execute => Work.tryExecute E (statement ++ ";")
    | .evaluate => do return (← Work.tryEvaluate E (statement ++ ";")).map fun _ => ()) d = _
  cases d.session.config.voidCalls <;> rfl

private theorem tryRunVoid_keeps (statement : String) (d : Desk σ) :
    ((tryRunVoid E statement).run d).2.session = d.session := by
  rw [tryRunVoid_run]
  cases d.session.config.voidCalls <;> rfl

theorem capture_keeps (statement : String) : Keeps (capture E statement) :=
  .bind (.lift fun _ => rfl) fun _ => .require _

theorem runVoid_keeps (statement : String) : Keeps (runVoid E statement) :=
  .bind (.lift (tryRunVoid_keeps statement)) fun _ => .require _

theorem outcome_converted (c : Converted α) (d : Desk σ) : outcome (converted c : Work σ α) d =
    (c.result.mapError .conversion, { d with trail := d.trail ++ c.events.map .event }) := by
  rw [converted, outcome_bind_ok (Work.outcome_tellAll c.events d), Work.outcome_require]

theorem converted_keeps (c : Converted α) : Keeps (converted c : Work σ α) := fun d => by
  rw [outcome_converted]

theorem isInstalled_keeps : Keeps (isInstalled E) := by
  refine .bind .session fun s => .bind (.evaluate _) fun w => ?_
  cases w <;> exact .pure _

theorem tableLength_keeps : Keeps (tableLength E) := by
  refine .bind .session fun s => .bind (.require _) fun _ => .bind (.evaluate _) fun w => ?_
  cases w with
  | number x =>
    by_cases hx : x.isNonNegative
    · simpa [hx] using Keeps.pure _
    · simpa [hx] using Keeps.throw _
  | _ => exact .throw _

theorem register_keeps (expression : String) : Keeps (register E expression) := by
  refine .bind .session fun s => .bind (.require _) fun _ => .bind (capture_keeps _) fun w => ?_
  cases w with
  | text t =>
    rcases h : (Wire.text t).handle? with _ | x
    · simpa [h] using Keeps.throw _
    · simpa [h] using Keeps.pure _
  | null => exact .pure _
  | _ => exact .throw _

theorem evaluateAs_keeps (expression : String) (shape : Shape) : Keeps (evaluateAs E expression shape) := by
  refine .bind .session fun s => .bind (.require _) fun _ => ?_
  by_cases hv : shape.isVoid
  · simpa [hv] using (runVoid_keeps _).bind fun _ => Keeps.pure _
  · simpa [hv] using (capture_keeps _).bind fun _ => Keeps.session.bind fun _ => converted_keeps _

theorem bind_keeps (c : Capability) (expression : String) : Keeps (Session.bind E c expression) := by
  refine .bind (evaluateAs_keeps _ _) fun v => ?_
  cases v with
  | null => exact .pure _
  | ref r => exact .pure _
  | _ => exact .throw _

theorem announceInstalled_outcome (d : Desk σ) :
    outcome (announceInstalled : Work σ Nat) d = (.ok (d.session.generation + 1),
      { d with
        session := d.session.next
        trail := d.trail ++ [.event (.installed d.session.config.tableName (d.session.generation + 1))] }) := by
  simp only [announceInstalled, outcome_bind, Work.outcome_nextGeneration, Work.outcome_session,
    Work.outcome_tell, outcome_pure, next]

/-- An installation that succeeds returns the new generation, one above the last. -/
theorem install_outcome (d : Desk σ) :
    (∃ e t, outcome (install E) d = (.error e, t) ∧ t.session = d.session) ∨
      ∃ t, outcome (install E) d = (.ok (d.session.generation + 1), t) ∧ t.session = d.session.next := by
  simp only [install, outcome_bind, Work.outcome_session, Work.outcome_execute, announceInstalled_outcome]
  rcases (E.execute (Bootstrap.install d.session.config) d.state).result with e | x
  · exact .inl ⟨.engine e, _, rfl, rfl⟩
  · exact .inr ⟨_, rfl, rfl⟩

private theorem restore_outcome (script : String) (d : Desk σ) :
    (∃ e t, outcome (Work.execute E script >>= fun _ => announceInstalled >>= fun _ => pure true) d = (.error e, t) ∧
        t.session = d.session) ∨
      ∃ t, outcome (Work.execute E script >>= fun _ => announceInstalled >>= fun _ => pure true) d = (.ok true, t) ∧
        t.session = d.session.next := by
  simp only [outcome_bind, Work.outcome_execute, announceInstalled_outcome, outcome_pure]
  rcases (E.execute script d.state).result with e | x
  · exact .inl ⟨.engine e, _, rfl, rfl⟩
  · exact .inr ⟨_, rfl, rfl⟩

/-- Ensuring an installation raises the generation when it installs, and when it finds a table in a session
that has none. -/
theorem ensureInstalled_outcome (d : Desk σ) :
    (∃ e t, outcome (ensureInstalled E) d = (.error e, t) ∧ t.session = d.session) ∨
      (∃ t, outcome (ensureInstalled E) d = (.ok true, t) ∧ t.session = d.session.next) ∨
      ∃ t, outcome (ensureInstalled E) d = (.ok false, t) ∧
        t.session = if d.session.generation = 0 then d.session.next else d.session := by
  rw [ensureInstalled, outcome_bind]
  rcases h : outcome (isInstalled E) d with ⟨e | found, t⟩
  · exact .inl ⟨e, t, rfl, isInstalled_keeps.session_eq h⟩
  rw [← isInstalled_keeps.session_eq h]
  cases found with
  | true =>
    refine .inr (.inr ?_)
    by_cases hg : t.session.generation = 0 <;> simp [outcome_bind, outcome_map, hg, Except.map]
  | false =>
    by_cases hg : t.session.generation = 0
    · simp only [Bool.false_eq_true, if_false, outcome_bind_ok (Work.outcome_session t), hg, ne_eq,
        not_true_eq_false]
      rcases restore_outcome (E := E) (Bootstrap.guarded t.session.config) t with h | h
      · exact .inl h
      · exact .inr (.inl h)
    · simp only [Bool.false_eq_true, if_false, outcome_bind_ok (Work.outcome_session t), hg, ne_eq,
        not_false_eq_true, if_true]
      rw [outcome_bind_ok (Work.outcome_tell _ t)]
      rcases restore_outcome (E := E) (Bootstrap.guarded t.session.config) _ with h | h
      · exact .inl h
      · exact .inr (.inl h)

end Session

namespace Dispatch

theorem send_keeps (statement : String) (shape : Shape) (d : Desk σ) :
    ((send E statement shape).run d).2.session = d.session := by
  unfold send
  by_cases hv : shape.isVoid
  · simp only [hv, if_true]
    exact Session.tryRunVoid_keeps statement d
  · simp only [hv, Bool.false_eq_true, if_false]
    rfl

theorem dispatch_keeps (target : Reference) (member : String) (args : List Native) (shape : Shape) :
    Keeps (dispatch E target member args shape) := by
  refine .bind (.tell _) fun _ => ?_
  rcases identity? target member args with _ | v
  · refine .bind .session fun s => .bind (.require _) fun _ => .bind (.tellAll _) fun _ => .bind (.tell _) fun _ =>
      .bind (.tell _) fun _ => .bind (.lift (send_keeps _ _)) fun reply => ?_
    rcases reply with e | _ | w
    · exact .bind (.tell _) fun _ => .throw _
    · exact .bind (.tell _) fun _ => .pure _
    · exact .bind (.tell _) fun _ => .bind .session fun _ => .bind (Session.converted_keeps _) fun _ =>
        .bind (.tell _) fun _ => .pure _
  · exact .bind (.tell _) fun _ => .pure _

theorem dispatchOrNull_keeps (target : Reference) (member : String) (args : List Native) (shape : Shape) :
    Keeps (dispatchOrNull E target member args shape) :=
  .tryCatch (dispatch_keeps _ _ _ _) fun _ => .bind (.tell _) fun _ => .pure _

theorem call_keeps (target : Reference) (member : String) (args : List Native) (t : ResultType) :
    Keeps (call E target member args t) :=
  .bind (dispatch_keeps _ _ _ _) fun _ => .require _

end Dispatch

namespace Probe

private theorem probeAll_keeps (target : List Char) (cs : List Capability) (d : Desk σ) :
    ((probeAll E target cs).run d).2.session = d.session := by
  induction cs generalizing d with
  | nil => rfl
  | cons c rest ih => exact ih _

theorem supported_run (registry : Registry) (r : Reference) (d : Desk σ) :
    (supported E registry r).run d = match d.session.check r with
      | .error e => ([], { d with trail := d.trail ++ [.event (.probeSkipped e)] })
      | .ok () =>
        (probeAll E (Expression.reference d.session.config.tableName r.handle) registry.capabilities).run d := by
  change StateT.run (match d.session.check r with
    | .error e => do
      Work.record [.event (.probeSkipped e)]
      return []
    | .ok () => probeAll E (Expression.reference d.session.config.tableName r.handle) registry.capabilities) d = _
  rcases d.session.check r with e | x <;> rfl

theorem supported_keeps (registry : Registry) (r : Reference) (d : Desk σ) :
    ((supported E registry r).run d).2.session = d.session := by
  rw [supported_run]
  rcases d.session.check r with e | x
  · rfl
  · exact probeAll_keeps _ _ d

end Probe
end ScriptBridge
