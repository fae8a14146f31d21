import ScriptBridge.Proofs.Generations

/-! The requests of calls and probes. A reference that the session cannot use is refused before anything is
sent; otherwise a call makes one request, and a probe makes one for each capability. -/
namespace ScriptBridge

variable {σ α β : Type} {E : Engine σ}

@[simp] theorem Desk.requests_event (s : Session) (x : σ) (marks : List Mark) (e : Event) :
    Desk.requests ⟨s, x, marks ++ [.event e]⟩ = Desk.requests ⟨s, x, marks⟩ := by
  simp [requests, Mark.request?]

@[simp] theorem Desk.requests_events (s : Session) (x : σ) (marks : List Mark) (es : List Event) :
    Desk.requests ⟨s, x, marks ++ es.map .event⟩ = Desk.requests ⟨s, x, marks⟩ := by
  simp [requests, Mark.request?, Function.comp_def]

theorem Work.answered_requests {α : Type} (r : Request) (reply : Reply σ α) (d : Desk σ) :
    (answered r reply d).2.requests = d.requests ++ [r] := by
  simp [answered, Desk.requests, Mark.request?, Function.comp_def]

/-- An action that asks the engine for nothing. -/
def Silent (a : Work σ α) : Prop := ∀ d, (outcome a d).2.requests = d.requests

namespace Silent

theorem pure (x : α) : Silent (pure x : Work σ α) := fun _ => rfl

theorem throw (e : BridgeError) : Silent (throw e : Work σ α) := fun _ => rfl

theorem session : Silent (Work.session : Work σ Session) := fun _ => rfl

theorem tell (e : Event) : Silent (Work.tell e : Work σ Unit) := fun d => by simp

theorem tellAll (es : List Event) : Silent (Work.tellAll es : Work σ Unit) := fun d => by simp

theorem require (c : Except BridgeError α) : Silent (Work.require c : Work σ α) := fun d => by simp

/-- What follows an action silently adds no request to those of the action. -/
theorem after {f : α → Work σ β} (hf : ∀ x, Silent (f x)) (a : Work σ α) (d : Desk σ) :
    (outcome (a >>= f) d).2.requests = (outcome a d).2.requests := by
  rw [outcome_bind]
  rcases outcome a d with ⟨e | x, t⟩
  · rfl
  · exact hf x t

theorem bind {a : Work σ α} {f : α → Work σ β} (ha : Silent a) (hf : ∀ x, Silent (f x)) : Silent (a >>= f) :=
  fun d => (after hf a d).trans (ha d)

theorem converted (c : Converted α) : Silent (Session.converted c : Work σ α) :=
  .bind (.tellAll _) fun _ => .require _

end Silent

namespace Dispatch

/-- The request by which a statement is sent. -/
def request (s : Session) (statement : String) (shape : Shape) : Request :=
  if shape.isVoid then
    match s.config.voidCalls with
    | .execute => .execute (statement ++ ";")
    | .evaluate => .evaluate (statement ++ ";")
  else .evaluate (s.captureScript statement)

theorem send_requests (statement : String) (shape : Shape) (d : Desk σ) :
    ((send E statement shape).run d).2.requests = d.requests ++ [request d.session statement shape] := by
  unfold send request
  by_cases hv : shape.isVoid
  · simp only [hv, if_true]
    change ((Session.tryRunVoid E statement).run d).2.requests = _
    rw [Session.tryRunVoid_run]
    cases d.session.config.voidCalls <;> exact Work.answered_requests _ _ d
  · simp only [hv, Bool.false_eq_true, if_false]
    exact Work.answered_requests _ _ d

variable {target : Reference} {member : String} {args : List Native}

/-- A refused reference leaves the first phase of the call behind and nothing else. -/
theorem dispatch_refused {d : Desk σ} {e : BridgeError} (hid : identity? target member args = none)
    (hcheck : d.session.check target = .error e) (shape : Shape) :
    outcome (dispatch E target member args shape) d =
      (.error e, { d with trail := d.trail ++ [.event (.phase .build member target.handle)] }) := by
  simp only [dispatch, enter, hid]
  rw [outcome_bind_ok (Work.outcome_tell _ d), outcome_bind_ok (Work.outcome_session _)]
  exact outcome_bind_error (by rw [Work.outcome_require, hcheck])

/-- A usable reference lets one request through, the one of the rendered call. -/
theorem dispatch_sent {d : Desk σ} (hid : identity? target member args = none)
    (hcheck : d.session.check target = .ok ()) (shape : Shape) :
    (outcome (dispatch E target member args shape) d).2.requests =
      d.requests ++ [request d.session (d.session.call target.handle member args) shape] := by
  simp only [dispatch, enter, hid]
  rw [outcome_bind_ok (Work.outcome_tell _ d), outcome_bind_ok (Work.outcome_session _), hcheck,
    outcome_bind_ok (Work.outcome_require _ _), outcome_bind_ok (Work.outcome_tellAll _ _),
    outcome_bind_ok (Work.outcome_tell _ _), outcome_bind_ok (Work.outcome_tell _ _), Silent.after]
  · rw [outcome_monadLift, send_requests]
    simp only [Desk.requests_event, Desk.requests_events]
  · intro reply
    rcases reply with e | _ | w
    · exact .bind (.tell _) fun _ => .throw _
    · exact .bind (.tell _) fun _ => .pure _
    · exact .bind (.tell _) fun _ => .bind .session fun _ => .bind (.converted _) fun _ =>
        .bind (.tell _) fun _ => .pure _

theorem dispatchOrNull_refused {d : Desk σ} {e : BridgeError} (hid : identity? target member args = none)
    (hcheck : d.session.check target = .error e) (shape : Shape) :
    outcome (dispatchOrNull E target member args shape) d =
      (.ok .null, { d with
        trail := d.trail ++ [.event (.phase .build member target.handle)] ++ [.event (.callFailed member e)] }) := by
  rw [dispatchOrNull, outcome_tryCatch, dispatch_refused hid hcheck]
  exact outcome_bind_ok (Work.outcome_tell _ _)

theorem dispatchOrNull_requests (shape : Shape) (d : Desk σ) :
    (outcome (dispatchOrNull E target member args shape) d).2.requests =
      (outcome (dispatch E target member args shape) d).2.requests := by
  rw [dispatchOrNull, outcome_tryCatch]
  rcases outcome (dispatch E target member args shape) d with ⟨e | v, t⟩
  · exact Silent.bind (.tell _) (fun _ => .pure _) t
  · rfl

theorem call_refused {d : Desk σ} {e : BridgeError} (hid : identity? target member args = none)
    (hcheck : d.session.check target = .error e) (t : ResultType) :
    outcome (call E target member args t) d =
      (.error e, { d with trail := d.trail ++ [.event (.phase .build member target.handle)] }) :=
  outcome_bind_error (dispatch_refused hid hcheck t.shape)

theorem call_requests (t : ResultType) (d : Desk σ) :
    (outcome (call E target member args t) d).2.requests =
      (outcome (dispatch E target member args t.shape) d).2.requests :=
  Silent.after (fun _ => .require _) _ d

end Dispatch

namespace Probe

theorem probeAll_requests (target : List Char) (cs : List Capability) (d : Desk σ) :
    ((probeAll E target cs).run d).2.requests =
      d.requests ++ cs.map fun c => .evaluate (script target c.members) := by
  induction cs generalizing d with
  | nil => exact (List.append_nil _).symm
  | cons c rest ih =>
    let reply := E.evaluate (script target c.members) d.state
    let asked := (Work.answered (.evaluate (script target c.members)) reply d).2
    have hrun : ((probeAll E target (c :: rest)).run d).2 =
        ((probeAll E target rest).run
          { asked with trail := asked.trail ++ (answer c reply.result).2.map .event }).2 := rfl
    rw [hrun, ih, Desk.requests_events, Work.answered_requests, List.append_assoc]
    rfl

end Probe
end ScriptBridge
