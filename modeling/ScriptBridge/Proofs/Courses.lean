import ScriptBridge.Proofs.Requests
import ScriptBridge.Proofs.TokenPolicies

/-! The courses of a call. A call goes through its phases in one of six ways. Its course fixes what is traced, what is
sent and what comes back, and none of them touches the session. What an engine reports while it answers is not the
call's own, and nothing is assumed of it. -/
namespace ScriptBridge

variable {σ : Type} {E : Engine σ}

/-- The phase that an event traces, with the member and the handle of the call. -/
def Event.phase? : Event → Option (Phase × String × Handle)
  | .phase p member h => some (p, member, h)
  | _ => none

theorem Event.phase?_of_topic {e : Event} (he : e.topic ≠ .dispatch) : e.phase? = none := by
  cases e with
  | phase p member h => exact absurd rfl he
  | _ => rfl

/-- Events of which none belongs to the dispatch of a call trace no phase. -/
theorem Event.phases_eq_nil {es : List Event} (hes : ∀ e ∈ es, e.topic ≠ .dispatch) :
    es.filterMap Event.phase? = [] :=
  List.filterMap_eq_nil_iff.2 fun e he => phase?_of_topic (hes e he)

namespace Expression

variable {owner : Option Session}

mutual
theorem remarks_topic : (v : Native) → ∀ e ∈ remarks owner v, e.topic = .expr
  | .array items => remarksOfAll_topic items
  | .ref r => by
    intro e he
    rw [remarks] at he
    split at he
    · cases he
    · obtain rfl := List.mem_singleton.1 he
      rfl
  | .foreign t => by
    intro e he
    obtain rfl := List.mem_singleton.1 he
    rfl
  | .null | .bool _ | .int _ | .long _ | .double _ | .text _ => by simp [remarks]

/-- The remarks on some arguments are the expression builder's. -/
theorem remarksOfAll_topic : (vs : List Native) → ∀ e ∈ remarksOfAll owner vs, e.topic = .expr
  | [] => by simp [remarksOfAll]
  | v :: rest => by
    intro e he
    rcases List.mem_append.1 he with he | he
    · exact remarks_topic v e he
    · exact remarksOfAll_topic rest e he
end

end Expression

namespace Session

/-- The events of a conversion are the codec's, by either policy. -/
theorem fromWire_topic (s : Session) (w : Wire) (shape : Shape) :
    ∀ e ∈ (s.fromWire w shape).events, e.topic = .codec := by
  obtain ⟨v, hv⟩ := fromWire_lenient (s := s.under .lenient) rfl w shape
  have hlenient : ∀ e ∈ ((s.under .lenient).fromWire w shape).events, e.topic = .codec := by
    intro e he
    rw [hv] at he
    obtain ⟨m, -, rfl⟩ := List.mem_map.1 he
    rfl
  cases hpolicy : s.config.tokenPolicy with
  | lenient =>
    have hs : s.under .lenient = s := by rw [under, ← hpolicy]
    rwa [hs] at hlenient
  | strict =>
    have hs : s.under .strict = s := by rw [under, ← hpolicy]
    have hstrict := fromWire_strict s w shape
    rw [hs] at hstrict
    rw [hstrict]
    cases w.malformed shape with
    | nil => exact hlenient
    | cons m rest => exact fun e he => absurd he List.not_mem_nil

/-- Why a session refuses a reference. -/
inductive Refuses (s : Session) (r : Reference) : BridgeError → Prop
  | foreign (hid : r.session ≠ s.id) : Refuses s r (.foreign r.handle)
  | notInstalled (hid : r.session = s.id) (hg : s.generation = 0) : Refuses s r .notInstalled
  | stale (hid : r.session = s.id) (hinstalled : s.generation ≠ 0) (hg : r.generation ≠ s.generation) :
      Refuses s r (.stale r.handle r.generation s.generation)

theorem refuses_of_check {s : Session} {r : Reference} {e : BridgeError} (h : s.check r = .error e) :
    s.Refuses r e := by
  rw [check] at h
  split at h
  · cases h
    exact .foreign ‹_›
  · rename_i hid
    split at h
    · cases h
      exact .notInstalled (Classical.not_not.1 hid) ‹_›
    · split at h
      · cases h
        exact .stale (Classical.not_not.1 hid) ‹_› ‹_›
      · cases h

end Session

/-- What an engine gives back for a request, where a script gives no value. -/
def Engine.reply (E : Engine σ) (x : σ) : Request → Reply σ (Option Wire)
  | .evaluate script =>
    let r := E.evaluate script x
    ⟨r.result.map some, r.state, r.events⟩
  | .execute script =>
    let r := E.execute script x
    ⟨r.result.map fun _ => none, r.state, r.events⟩

namespace Dispatch

/-- The ways in which a call can go. -/
inductive Course where
  | identified | refused | failed | unconverted | converted | finished
  deriving DecidableEq

namespace Course

/-- The phases of a course in order. -/
def phases : Course → List Phase
  | identified => [.build, .return]
  | refused => [.build]
  | failed => [.build, .send, .fail]
  | unconverted => [.build, .send, .convert]
  | converted => [.build, .send, .convert, .return]
  | finished => [.build, .send, .return]

/-- The phases as a call traces them, with its member and its handle. -/
def trace (c : Course) (member : String) (h : Handle) : List (Phase × String × Handle) :=
  c.phases.map (·, member, h)

end Course

/-- A call that is let through, and its request: a statement for its effect by the operation that the configuration
names, and any other one through the converter. -/
structure Sends (s : Session) (target : Reference) (member : String) (args : List Native) (shape : Shape)
    (q : Request) : Prop where
  other : identity? target member args = none
  usable : s.check target = .ok ()
  request : q = if shape.isVoid then
      match s.config.voidCalls with
      | .execute => .execute (s.call target.handle member args ++ ";")
      | .evaluate => .evaluate (s.call target.handle member args ++ ";")
    else .evaluate ("return " ++ s.config.converterName ++ "(" ++ s.call target.handle member args ++ ");")

/-- A request that asks for a value gets one, if it gets an answer. -/
theorem Sends.value {s : Session} {x : σ} {target : Reference} {member : String} {args : List Native} {shape : Shape}
    {q : Request} {w : Option Wire} (h : Sends s target member args shape q) (hshape : ¬shape.isVoid = true)
    (hreply : (E.reply x q).result = .ok w) : ∃ value, w = some value := by
  rw [h.request, if_neg hshape, Engine.reply] at hreply
  simp only at hreply
  generalize (E.evaluate _ x).result = answer at hreply
  cases answer with
  | error e => cases hreply
  | ok value =>
    cases hreply
    exact ⟨value, rfl⟩

/-- The course that a call goes in a session over an engine, with the request that is sent and the result. -/
inductive Goes (E : Engine σ) (s : Session) (x : σ) (target : Reference) (member : String) (args : List Native)
    (shape : Shape) : Course → Option Request → Except BridgeError Native → Prop
  | identified {v : Native} (hid : identity? target member args = some v) :
      Goes E s x target member args shape .identified none (.ok v)
  | refused {e : BridgeError} (hid : identity? target member args = none) (hcheck : s.check target = .error e)
      (hreason : s.Refuses target e) : Goes E s x target member args shape .refused none (.error e)
  | failed {q : Request} {e : EngineError} (hsends : Sends s target member args shape q)
      (hreply : (E.reply x q).result = .error e) :
      Goes E s x target member args shape .failed (some q) (.error (.engine e))
  | unconverted {q : Request} {w : Wire} {e : ConversionError} (hsends : Sends s target member args shape q)
      (hshape : shape.isVoid = false) (hreply : (E.reply x q).result = .ok (some w))
      (hw : (s.fromWire w shape).result = .error e) :
      Goes E s x target member args shape .unconverted (some q) (.error (.conversion e))
  | converted {q : Request} {w : Wire} {v : Native} (hsends : Sends s target member args shape q)
      (hshape : shape.isVoid = false) (hreply : (E.reply x q).result = .ok (some w))
      (hw : (s.fromWire w shape).result = .ok v) : Goes E s x target member args shape .converted (some q) (.ok v)
  | finished {q : Request} {w : Option Wire} (hsends : Sends s target member args shape q)
      (hshape : shape.isVoid = true) (hreply : (E.reply x q).result = .ok w) :
      Goes E s x target member args shape .finished (some q) (.ok .null)

namespace Goes

variable {s : Session} {x : σ} {target : Reference} {member : String} {args : List Native} {shape : Shape}
  {c c' : Course} {q q' : Option Request} {r r' : Except BridgeError Native}

/-- There is one course that a call can go, with one request and one result. -/
theorem unique (h : Goes E s x target member args shape c q r) (h' : Goes E s x target member args shape c' q' r') :
    c = c' ∧ q = q' ∧ r = r' := by
  cases h <;> cases h' <;> grind [Sends]

end Goes

/-- What a call leaves behind: its own events, and between them the request that it has sent, if any. -/
structure Passage where
  before : List Event
  request : Option Request
  after : List Event

namespace Passage

/-- The phases that the call itself has traced. -/
def phases (p : Passage) : List (Phase × String × Handle) := (p.before ++ p.after).filterMap Event.phase?

/-- The desk behind a call. The engine has moved on by the reply to the request, and its reports follow the request. -/
def leave (E : Engine σ) (p : Passage) (d : Desk σ) : Desk σ where
  session := d.session
  state := p.request.elim d.state fun q => (E.reply d.state q).state
  trail := d.trail ++ p.before.map .event
    ++ (p.request.elim [] fun q => .request q :: (E.reply d.state q).events.map .event) ++ p.after.map .event

theorem leave_events (p : Passage) (d : Desk σ) (es : List Event) :
    { p.leave E d with trail := (p.leave E d).trail ++ es.map .event } =
      Passage.leave E ⟨p.before, p.request, p.after ++ es⟩ d := by
  simp [leave]

theorem leave_requests (p : Passage) (d : Desk σ) : (p.leave E d).requests = d.requests ++ p.request.toList := by
  have hevents (es : List Event) : (es.map Mark.event).filterMap Mark.request? = [] := by
    simp [Mark.request?, Function.comp_def]
  rcases p with ⟨before, _ | q, after⟩ <;>
    simp [leave, Desk.requests, Mark.request?, hevents]

end Passage

/-- Sending a statement is asking the engine; a call without a result leaves the value aside. -/
theorem send_run (statement : String) (shape : Shape) (d : Desk σ) :
    (send E statement shape).run d =
      ((E.reply d.state (request d.session statement shape)).result.map fun w => if shape.isVoid then none else w,
        (Work.answered (request d.session statement shape)
          (E.reply d.state (request d.session statement shape)) d).2) := by
  unfold send request
  by_cases hv : shape.isVoid
  · simp only [hv, if_true]
    change (((Session.tryRunVoid E statement).run d).1.map (fun _ => none),
      ((Session.tryRunVoid E statement).run d).2) = _
    rw [Session.tryRunVoid_run]
    cases d.session.config.voidCalls with
    | execute =>
      refine Prod.ext ?_ rfl
      simp only [Work.answered, Engine.reply]
      cases (E.execute (statement ++ ";") d.state).result <;> rfl
    | evaluate =>
      refine Prod.ext ?_ rfl
      simp only [Engine.reply]
      cases (E.evaluate (statement ++ ";") d.state).result <;> rfl
  · simp only [hv, Bool.false_eq_true, if_false]
    refine Prod.ext ?_ rfl
    change ((Session.tryCapture E statement).run d).1.map some = _
    rw [Session.tryCapture_run]
    simp only [Work.answered, Engine.reply]
    cases (E.evaluate (d.session.captureScript statement) d.state).result <;> rfl

variable {d : Desk σ} {target : Reference} {member : String} {args : List Native} {shape : Shape}

/-- The events of a call in front of its request. -/
def opening (s : Session) (target : Reference) (member : String) (args : List Native) : List Event :=
  .phase .build member target.handle :: Expression.remarksOfAll (some s) args
    ++ [.statement (s.call target.handle member args), .phase .send member target.handle]

theorem opening_phases (s : Session) (target : Reference) (member : String) (args : List Native) :
    (opening s target member args).filterMap Event.phase? =
      [(.build, member, target.handle), (.send, member, target.handle)] := by
  have hremarks : (Expression.remarksOfAll (some s) args).filterMap Event.phase? = [] :=
    Event.phases_eq_nil fun e he => by simp [Expression.remarksOfAll_topic args e he]
  simp only [opening, List.filterMap_append, List.filterMap_cons, Event.phase?, hremarks]
  rfl

/-- What becomes of a call when the engine has answered. -/
def close (target : Reference) (member : String) (shape : Shape) : Except EngineError (Option Wire) → Work σ Native
  | .error e => do
    enter .fail member target.handle
    throw (.engine e)
  | .ok none => do
    enter .return member target.handle
    return .null
  | .ok (some w) => do
    enter .convert member target.handle
    let v ← Session.converted ((← Work.session).fromWire w shape)
    enter .return member target.handle
    return v

/-- A call that is let through asks the engine once and is closed with the answer. -/
theorem dispatch_outcome {q : Request} (hsends : Sends d.session target member args shape q) :
    outcome (dispatch E target member args shape) d =
      outcome (close target member shape ((E.reply d.state q).result.map fun w => if shape.isVoid then none else w))
        (Passage.leave E ⟨opening d.session target member args, some q, []⟩ d) := by
  have hq : q = request d.session (d.session.call target.handle member args) shape := hsends.request
  simp only [dispatch, enter, hsends.other, outcome_bind, Work.outcome_tell, Work.outcome_session, Work.outcome_require,
    hsends.usable, Work.outcome_tellAll, outcome_monadLift, send_run, ← hq]
  have hdesk : (Work.answered q (E.reply d.state q) { d with
      trail := d.trail ++ [.event (.phase .build member target.handle)]
        ++ (Expression.remarksOfAll (some d.session) args).map .event
        ++ [.event (.statement (d.session.call target.handle member args))]
        ++ [.event (.phase .send member target.handle)] }).2 =
      Passage.leave E ⟨opening d.session target member args, some q, []⟩ d := by
    simp [Passage.leave, opening, Work.answered]
  rw [hdesk]
  rcases (E.reply d.state q).result with e | w
  · rfl
  · simp only [Except.map]
    cases (if shape.isVoid then none else w) <;> rfl

/-- A value that comes back is converted, and the conversion's events stand behind the phase. -/
theorem close_value (w : Wire) (t : Desk σ) :
    outcome (close target member shape (.ok (some w))) t = match (t.session.fromWire w shape).result with
      | .error e => (.error (.conversion e),
        { t with trail := t.trail
            ++ (.phase .convert member target.handle :: (t.session.fromWire w shape).events).map .event })
      | .ok v => (.ok v,
        { t with trail := t.trail
            ++ (Event.phase .convert member target.handle :: (t.session.fromWire w shape).events
              ++ [Event.phase .return member target.handle]).map .event }) := by
  rw [close, enter, outcome_bind_ok (Work.outcome_tell _ _), outcome_bind_ok (Work.outcome_session _), outcome_bind,
    Session.outcome_converted]
  rcases (t.session.fromWire w shape).result with e | v
  · have hresult : (Except.error e : Except ConversionError Native).mapError BridgeError.conversion =
        .error (.conversion e) := rfl
    simp [hresult]
  · have hresult : (Except.ok v : Except ConversionError Native).mapError BridgeError.conversion = .ok v := rfl
    simp [hresult, enter, outcome_map, Except.map]

/-- The answer of the engine decides which course a call that is let through goes to its end. -/
theorem close_goes {q : Request} {t : Desk σ} (hsends : Sends d.session target member args shape q)
    (ht : t.session = d.session) : ∃ (c : Course) (es : List Event) (r : Except BridgeError Native),
      outcome (close target member shape ((E.reply d.state q).result.map fun w => if shape.isVoid then none else w)) t =
        (r, { t with trail := t.trail ++ es.map .event }) ∧
      Goes E d.session d.state target member args shape c (some q) r ∧
      c.trace member target.handle = [.build, .send].map (·, member, target.handle) ++ es.filterMap Event.phase? := by
  rcases hreply : (E.reply d.state q).result with e | w
  · exact ⟨.failed, [.phase .fail member target.handle], .error (.engine e), rfl, .failed hsends hreply, rfl⟩
  · by_cases hshape : shape.isVoid = true
    · refine ⟨.finished, [.phase .return member target.handle], .ok .null, ?_, .finished hsends hshape hreply, rfl⟩
      simp only [Except.map, hshape, if_true]
      rfl
    · obtain ⟨w, rfl⟩ := hsends.value hshape hreply
      have hvalue : shape.isVoid = false := by simpa using hshape
      have hevents : ((d.session.fromWire w shape).events).filterMap Event.phase? = [] :=
        Event.phases_eq_nil fun e he => by simp [d.session.fromWire_topic w shape e he]
      simp only [Except.map, hvalue, Bool.false_eq_true, if_false, close_value, ht]
      rcases hw : (d.session.fromWire w shape).result with e | v
      · refine ⟨.unconverted, .phase .convert member target.handle :: (d.session.fromWire w shape).events,
          .error (.conversion e), rfl, .unconverted hsends hvalue hreply hw, ?_⟩
        simp [Event.phase?, hevents, Course.trace, Course.phases]
      · refine ⟨.converted, .phase .convert member target.handle :: (d.session.fromWire w shape).events
          ++ [.phase .return member target.handle], .ok v, rfl, .converted hsends hvalue hreply hw, ?_⟩
        simp [Event.phase?, hevents, Course.trace, Course.phases]

/-- Every call goes a course, and traces the phases of the course. -/
theorem dispatch_goes (E : Engine σ) (d : Desk σ) (target : Reference) (member : String) (args : List Native)
    (shape : Shape) : ∃ (c : Course) (p : Passage) (r : Except BridgeError Native),
      outcome (dispatch E target member args shape) d = (r, p.leave E d) ∧
      Goes E d.session d.state target member args shape c p.request r ∧ p.phases = c.trace member target.handle := by
  rcases hid : identity? target member args with _ | v
  · rcases hcheck : d.session.check target with e | _
    · refine ⟨.refused, ⟨[.phase .build member target.handle], none, []⟩, .error e, ?_,
        .refused hid hcheck (Session.refuses_of_check hcheck), rfl⟩
      rw [dispatch_refused hid hcheck]
      simp [Passage.leave]
    · obtain ⟨q, hsends⟩ : ∃ q, Sends d.session target member args shape q := ⟨_, hid, hcheck, rfl⟩
      let p : Passage := ⟨opening d.session target member args, some q, []⟩
      obtain ⟨c, es, r, hclose, hgoes, hphases⟩ := close_goes (E := E) (t := p.leave E d) hsends rfl
      refine ⟨c, ⟨p.before, p.request, es⟩, r, ?_, hgoes, ?_⟩
      · rw [dispatch_outcome hsends, hclose, p.leave_events]
        rfl
      · rw [hphases, Passage.phases, List.filterMap_append, opening_phases]
        rfl
  · refine ⟨.identified, ⟨[.phase .build member target.handle, .phase .return member target.handle], none, []⟩, .ok v,
      ?_, .identified hid, rfl⟩
    simp [dispatch, enter, hid, outcome_bind, outcome_map, Passage.leave, Except.map]

end Dispatch
end ScriptBridge
