import ScriptBridge.Proofs.Courses

/-! Two ways to a member. A session that evaluates the text of a call asks its engine for the same as the call itself
does, and makes the same of the answer, whatever the engine answers. Only the call traces its phases and remarks on its
arguments. -/
namespace ScriptBridge

variable {σ : Type} {E : Engine σ}

/-- What stands on a trail besides the traces of calls and the remarks on their arguments. -/
def Mark.isLasting : Mark → Bool
  | .request _ => true
  | .event e => e.topic != .dispatch && e.topic != .expr

/-- Desks that only what calls trace and remark tells apart. -/
structure Desk.Alike (t u : Desk σ) : Prop where
  session : t.session = u.session
  state : t.state = u.state
  trail : t.trail.filter Mark.isLasting = u.trail.filter Mark.isLasting

theorem Desk.Alike.append {t u : Desk σ} (h : t.Alike u) (ms ns : List Mark)
    (hmarks : ms.filter Mark.isLasting = ns.filter Mark.isLasting) :
    Alike { t with trail := t.trail ++ ms } { u with trail := u.trail ++ ns } where
  session := h.session
  state := h.state
  trail := by rw [List.filter_append, List.filter_append, h.trail, hmarks]

/-- Such desks have made the same requests. -/
theorem Desk.Alike.requests {t u : Desk σ} (h : t.Alike u) : t.requests = u.requests := by
  have hlasting (marks : List Mark) : (marks.filter Mark.isLasting).filterMap Mark.request? =
      marks.filterMap Mark.request? := by
    rw [List.filterMap_filter]
    congr 1
    funext m
    cases m with
    | event e => simp [Mark.request?]
    | request q => rfl
  rw [Desk.requests, Desk.requests, ← hlasting, h.trail, hlasting]

namespace Session

/-- What becomes of an evaluation when the engine has answered. -/
def settle (shape : Shape) : Except EngineError (Option Wire) → Work σ Native
  | .error e => throw (.engine e)
  | .ok none => return .null
  | .ok (some w) => do converted ((← Work.session).fromWire w shape)

/-- Where a table is installed, an evaluation asks the engine once and is settled with the answer. -/
theorem evaluateAs_outcome (statement : String) (shape : Shape) {d : Desk σ} (hgeneration : d.session.generation ≠ 0) :
    outcome (evaluateAs E statement shape) d =
      outcome (settle shape ((E.reply d.state (Dispatch.request d.session statement shape)).result.map
          fun w => if shape.isVoid then none else w))
        (Dispatch.Passage.leave E ⟨[], some (Dispatch.request d.session statement shape), []⟩ d) := by
  have hinstalled : d.session.requireInstalled = .ok () := if_neg hgeneration
  have hdesk : Dispatch.Passage.leave E ⟨[], some (Dispatch.request d.session statement shape), []⟩ d =
      ((Dispatch.send E statement shape).run d).2 := by
    rw [Dispatch.send_run]
    simp [Dispatch.Passage.leave, Work.answered]
  have hanswer : (E.reply d.state (Dispatch.request d.session statement shape)).result.map
      (fun w => if shape.isVoid then none else w) = ((Dispatch.send E statement shape).run d).1 := by
    rw [Dispatch.send_run]
  rw [hdesk, hanswer, Dispatch.send, evaluateAs, outcome_bind_ok (Work.outcome_session d), hinstalled,
    outcome_bind_ok (Work.outcome_require _ d)]
  by_cases hvoid : shape.isVoid = true
  · rw [if_pos hvoid, if_pos hvoid, outcome_bind, runVoid, outcome_bind, outcome_monadLift, StateT.run_bind]
    rcases (tryRunVoid E statement).run d with ⟨e | x, t⟩ <;> rfl
  · rw [if_neg hvoid, if_neg hvoid, outcome_bind, capture, outcome_bind, outcome_monadLift, StateT.run_bind]
    rcases (tryCapture E statement).run d with ⟨e | w, t⟩ <;> rfl

end Session

namespace Dispatch

/-- A call is closed as an evaluation is settled, but for the phases that it traces. -/
theorem close_settle (target : Reference) (member : String) (shape : Shape)
    (answer : Except EngineError (Option Wire)) {t u : Desk σ} (h : t.Alike u) :
    (outcome (close target member shape answer) t).1 = (outcome (Session.settle shape answer) u).1 ∧
      (outcome (close target member shape answer) t).2.Alike (outcome (Session.settle shape answer) u).2 := by
  have htrace (p : Phase) (t u : Desk σ) (h : t.Alike u) :
      Desk.Alike { t with trail := t.trail ++ [.event (.phase p member target.handle)] } u := by
    simpa using h.append [.event (.phase p member target.handle)] [] rfl
  rcases answer with e | _ | w
  · exact ⟨rfl, htrace .fail t u h⟩
  · exact ⟨rfl, htrace .return t u h⟩
  · have hsettle : outcome (Session.settle shape (.ok (some w))) u =
        outcome (Session.converted (t.session.fromWire w shape)) u := by
      rw [Session.settle, outcome_bind_ok (Work.outcome_session u), h.session]
    rw [close_value, hsettle, Session.outcome_converted]
    generalize t.session.fromWire w shape = c
    have hconverted := (htrace .convert t u h).append (c.events.map .event) (c.events.map .event) rfl
    rcases c.result with e | v
    · refine ⟨rfl, ?_⟩
      simpa using hconverted
    · refine ⟨rfl, ?_⟩
      simpa using htrace .return _ _ hconverted

/-- Up to the answer a call leaves the desk as the evaluation of its text does. -/
theorem leave_opening (d : Desk σ) (target : Reference) (member : String) (args : List Native) (q : Request) :
    (Passage.leave E ⟨opening d.session target member args, some q, []⟩ d).Alike
      (Passage.leave E ⟨[], some q, []⟩ d) where
  session := rfl
  state := rfl
  trail := by
    have hremarks : ((Expression.remarksOfAll (some d.session) args).map Mark.event).filter Mark.isLasting = [] := by
      refine List.filter_eq_nil_iff.2 fun m hm => ?_
      obtain ⟨e, he, rfl⟩ := List.mem_map.1 hm
      simp [Mark.isLasting, Expression.remarksOfAll_topic args e he]
    simp only [Passage.leave, opening, List.map_append, List.map_cons, List.filter_append, List.filter_cons, hremarks]
    rfl

end Dispatch

open Dispatch in
/-- To evaluate the text of a call is to call: the engine is asked for the same, once, by the same operation, and what
comes back is the same value or the same error. Besides the traces and remarks of the call the desk is left alike. -/
theorem Session.evaluateAs_call (E : Engine σ) (d : Desk σ) {target : Reference} (howns : d.session.owns target = true)
    {member : String} {args : List Native} (hid : identity? target member args = none) (shape : Shape) :
    let statement := d.session.call target.handle member args
    let q := request d.session statement shape
    (outcome (evaluateAs E statement shape) d).1 = (outcome (dispatch E target member args shape) d).1 ∧
      (outcome (evaluateAs E statement shape) d).2.requests = d.requests ++ [q] ∧
      (outcome (dispatch E target member args shape) d).2.requests = d.requests ++ [q] ∧
      (outcome (dispatch E target member args shape) d).2.Alike (outcome (evaluateAs E statement shape) d).2 := by
  intro statement q
  obtain ⟨-, hgeneration, -⟩ := (d.session.owns_iff target).1 howns
  have hcheck : d.session.check target = .ok () := by
    unfold owns at howns
    split at howns
    · assumption
    · cases howns
  have hsent := dispatch_sent (E := E) hid hcheck shape
  rw [dispatch_outcome ⟨hid, hcheck, rfl⟩] at hsent ⊢
  rw [evaluateAs_outcome statement shape hgeneration]
  obtain ⟨hvalue, halike⟩ := close_settle target member shape
    ((E.reply d.state q).result.map fun w => if shape.isVoid then none else w)
    (leave_opening (E := E) d target member args q)
  exact ⟨hvalue.symm, halike.requests.symm.trans hsent, hsent, halike⟩

/-- A token that is none, where the policy is lenient. -/
theorem Session.evaluateAs_call_repaired :
    let E : Engine Unit := ⟨fun _ x => ⟨.ok (.text "nsiId=x"), x, []⟩, fun _ x => ⟨.ok (), x, []⟩⟩
    let s : Session := ⟨0, { tokenPolicy := .lenient }, 1⟩
    let d : Desk Unit := ⟨s, (), []⟩
    let target : Reference := ⟨0, ⟨3⟩, "Node", 1⟩
    let text := s.call ⟨3⟩ "getOwner" []
    s.owns target = true ∧ Dispatch.identity? target "getOwner" [] = none ∧ text = "nsiArray[3].owner" ∧
      (outcome (Dispatch.dispatch E target "getOwner" [] (.capability "Node")) d).1 = .ok (.ref (s.mint Handle.root "Node")) ∧
      (outcome (evaluateAs E text (.capability "Node")) d).1 = .ok (.ref (s.mint Handle.root "Node")) ∧
      (outcome (evaluateAs E text (.capability "Node")) d).2.requests = [.evaluate "return convertNsi(nsiArray[3].owner);"] := by
  intro E s d target text
  have howns : s.owns target = true := by decide
  have hid : Dispatch.identity? target "getOwner" [] = none := by decide
  have htext : text = "nsiArray[3].owner" := by decide +kernel
  obtain ⟨hvalue, hrequests, -⟩ := evaluateAs_call E d howns hid (.capability "Node")
  have hcalled : (outcome (Dispatch.dispatch E target "getOwner" [] (.capability "Node")) d).1 =
      .ok (.ref (s.mint Handle.root "Node")) := rfl
  have hscript : s.captureScript text = "return convertNsi(nsiArray[3].owner);" := by rw [htext]; decide +kernel
  exact ⟨howns, hid, htext, hcalled, hvalue.trans hcalled, hrequests.trans (congrArg (fun t => [Request.evaluate t]) hscript)⟩

end ScriptBridge
