import ScriptBridge.Proofs.ReachableTables
import ScriptBridge.Proofs.ValidScripts

/-! Capturing of expressions. The text of an expression stands in the parentheses of a call, so what is separated by
commas on its outermost level is not one value but several, and the converter is given the first of them. Where there
is no such comma, the value of the expression itself is converted. -/
namespace ScriptBridge

open Script
open Script.Parser (joined)
open Embedded (engine reply toWire)

namespace Script.Expr

/-- Expressions with commas between them are evaluated as the arguments of a call are, and give the last value. -/
theorem outcome_joined (s : Scope) (e : Expr) (es : List Expr) (found : List Value) (h : Heap) :
    outcome ((joined e es).evaluate s) h =
      ((outcome (evaluateAll s found (e :: es)) h).1.map (·.getLastD .undefined),
        (outcome (evaluateAll s found (e :: es)) h).2) := by
  induction es generalizing e found h with
  | nil =>
    rw [joined, evaluateAll, outcome_bind]
    rcases outcome (e.evaluate s) h with ⟨t | v, h'⟩
    · rfl
    · simp [evaluateAll, Except.map]
  | cons f es ih =>
    rw [joined, evaluate, evaluateAll, outcome_bind, outcome_bind]
    rcases outcome (e.evaluate s) h with ⟨t | v, h'⟩
    · rfl
    · exact ih f (v :: found) h'

/-- Each expression gives one value. -/
theorem length_evaluateAll {s : Scope} {es : List Expr} {found vs : List Value} {h h' : Heap}
    (hrun : outcome (evaluateAll s found es) h = (.ok vs, h')) : vs.length = found.length + es.length := by
  induction es generalizing found h with
  | nil =>
    rw [evaluateAll, outcome_pure] at hrun
    obtain ⟨hvs, -⟩ := Prod.mk.inj hrun
    rw [← Except.ok.inj hvs, List.length_reverse]
    rfl
  | cons e es ih =>
    rw [evaluateAll, outcome_bind_eq_ok] at hrun
    obtain ⟨v, h₁, -, hrest⟩ := hrun
    rw [ih hrest, List.length_cons, List.length_cons]
    omega

/-- An expression that gives a value gives the last one of those that stand between its outermost commas. -/
theorem evaluateAll_of_joined {s : Scope} {e : Expr} {es : List Expr} {x : Value} {h h' : Heap}
    (hrun : outcome ((joined e es).evaluate s) h = (.ok x, h')) : ∃ v vs,
      outcome (evaluateAll s [] (e :: es)) h = (.ok (v :: vs), h') ∧ vs.length = es.length ∧
      (v :: vs).getLastD .undefined = x := by
  rw [outcome_joined s e es [] h] at hrun
  rcases hall : outcome (evaluateAll s [] (e :: es)) h with ⟨t | us, h₁⟩ <;> rw [hall] at hrun
  · cases hrun
  · obtain ⟨hlast, rfl⟩ := Prod.mk.inj hrun
    have hlength := length_evaluateAll hall
    cases us with
    | nil => simp at hlength
    | cons v vs =>
      exact ⟨v, vs, rfl, by simpa using hlength, Except.ok.inj hlast⟩

end Script.Expr

/-- The converter converts its first argument. -/
theorem Script.Converter.outcome_invoke_first {m : Memory} {f : Address} {h : Heap}
    (hcode : h.code? f = some (.tool .convert m)) (this v : Value) (vs : List Value) :
    outcome (Run.invoke (.object f) this (v :: vs)) h = outcome (Run.invoke (.object f) this [v]) h := by
  rw [Run.invoke, Run.invoke, outcome_bind_ok (outcome_get h), outcome_bind_ok (outcome_get h), Run.depthFor,
    Run.outcome_callWithin hcode, Run.outcome_callWithin hcode]
  rfl

namespace Embedded

theorem reply_congr {α β : Type} {a b : Run α} {h h' : Heap} (hab : outcome a h = outcome b h')
    (result : Heap → α → Except EngineError β) : reply h a result = reply h' b result := by
  have hrun : a.run h = b.run h' := hab
  rw [reply, reply, hrun]

/-- What a converter makes of a value, as it is handed out. -/
def conversion (f : Address) (v : Value) (h : Heap) : Reply Heap Wire :=
  reply h (Run.invoke (.object f) .undefined [v]) toWire

variable {s : Session} {m : Memory} {f : Address} {h h' : Heap} {statement : String}

/-- The capture of an expression is a call of the name of the converter. -/
theorem evaluate_captureScript (hsound : s.config.Sound) (hconverter : s.config.converterName ∉ Parser.reserved)
    (hstatement : IsExpression statement.toList) (hnull : NullFree statement.toList) :
    ∃ e es, Parser.expression? statement.toList = .ok (joined e es) ∧ ∀ h, engine.evaluate (s.captureScript statement) h =
      reply h ((Expr.call (.name s.config.converterName) (e :: es)).evaluate .body) toWire := by
  obtain ⟨e, es, hread, hbody⟩ := Session.ofBody_captureScript hsound hconverter hstatement
  refine ⟨e, es, hread, fun h => ?_⟩
  change launch _ _ .body toWire h = _
  unfold launch
  rw [(NullFree.captureScript hsound.converter hnull).nullAt?_wrap, hbody]
  rfl

/-- It calls the converter with the values that stand between the outermost commas. -/
theorem evaluate_captured (hsound : s.config.Sound) (hconverter : IsVariable s.config.converterName)
    (hf : h.Holds Heap.global (.ofText s.config.converterName) (.object f)) (hstatement : IsExpression statement.toList)
    (hnull : NullFree statement.toList) : ∃ e es, Parser.expression? statement.toList = .ok (joined e es) ∧
      engine.evaluate (s.captureScript statement) h =
        reply h (Expr.evaluateAll .body [] (e :: es) >>= Run.invoke (.object f) .undefined) toWire := by
  obtain ⟨e, es, hread, heval⟩ := evaluate_captureScript hsound hconverter.1 hstatement hnull
  refine ⟨e, es, hread, (heval h).trans ?_⟩
  exact reply_congr (Expr.outcome_call_name hconverter.2 hf (e :: es)) toWire

/-- What is handed out is what the converter makes of the first of the values. -/
theorem reply_of_values {es : List Expr} {v : Value} {vs : List Value}
    (hall : outcome (Expr.evaluateAll .body [] es) h = (.ok (v :: vs), h')) (hcode : h'.code? f = some (.tool .convert m)) :
    reply h (Expr.evaluateAll .body [] es >>= Run.invoke (.object f) .undefined) toWire = conversion f v h' := by
  refine reply_congr ?_ toWire
  rw [outcome_bind_ok hall, Converter.outcome_invoke_first hcode]

end Embedded

/-- The handle that a wire value stands for where an object is registered; null stands for none. -/
def Wire.registered : Wire → Except BridgeError (Option Handle)
  | .null => .ok none
  | w =>
    match w.handle? with
    | some h => .ok (some h)
    | none => .error (.conversion (.shapeMismatch "reference" w.kind))

/-- The answer to a registration, by the reply to the capture. -/
def Reply.registered {σ : Type} (r : Reply σ Wire) : Except BridgeError (Option Handle) :=
  (r.result.mapError .engine).bind Wire.registered

theorem Wire.registered_text (t : String) : registered (.text t) = match Handle.ofToken? t with
    | some h => .ok (some h)
    | none => .error (.conversion (.shapeMismatch "reference" "string")) := rfl

namespace Session

/-- A registration is the capture of an expression, and says what the wire value stands for. -/
theorem outcome_register_eq {σ : Type} (E : Engine σ) (statement : String) (d : Desk σ)
    (hgeneration : d.session.generation ≠ 0) : outcome (register E statement) d =
      ((E.evaluate (d.session.captureScript statement) d.state).registered, d.captured E statement) := by
  have hinstalled : d.session.requireInstalled = .ok () := if_neg hgeneration
  rw [register, outcome_bind_ok (Work.outcome_session d), hinstalled, outcome_bind_ok (Work.outcome_require _ d),
    outcome_bind, outcome_capture_eq, Reply.registered]
  rcases (E.evaluate (d.session.captureScript statement) d.state).result with e | w
  · rfl
  · cases w with
    | text t =>
      change outcome (match Handle.ofToken? t with
        | some h => pure (some h)
        | none => throw (.conversion (.shapeMismatch "reference" "string"))) _ = (Wire.registered (.text t), _)
      rw [Wire.registered_text]
      cases Handle.ofToken? t <;> rfl
    | _ => rfl

/-- Of an expression that gives a value, what stands in front of the first of its outermost commas is converted, and
the value itself where there is no such comma. Evaluations hand out what the converter makes of that, as the shape has
it, and registrations the handle. -/
theorem captures_first_value (d : Desk Heap) {m : Memory} {f : Address} {statement : String}
    (hvalid : d.session.config.validate = .ok ()) (hconverter : IsVariable d.session.config.converterName)
    (hgeneration : d.session.generation ≠ 0)
    (hf : d.state.Holds Heap.global (.ofText d.session.config.converterName) (.object f))
    (hstatement : IsExpression statement.toList) (hnull : NullFree statement.toList) :
    ∃ e es, Parser.expression? statement.toList = .ok (joined e es) ∧
      ∀ x h, outcome ((joined e es).evaluate .body) d.state = (.ok x, h) → h.code? f = some (.tool .convert m) →
        ∃ v vs, outcome (Expr.evaluateAll .body [] (e :: es)) d.state = (.ok (v :: vs), h) ∧
          (v :: vs).getLastD .undefined = x ∧ (es = [] → v = x) ∧
          ∃ d' : Desk Heap, d'.session = d.session ∧ d'.state = (Embedded.conversion f v h).state ∧
            outcome (register engine statement) d = ((Embedded.conversion f v h).registered, d') ∧
            ∀ shape, shape.isVoid = false → outcome (evaluateAs engine statement shape) d =
              outcome (do converted (d.session.fromWire (← Work.orThrow (Embedded.conversion f v h).result) shape)) d' := by
  obtain ⟨e, es, hread, heval⟩ :=
    Embedded.evaluate_captured (Config.sound_of_validate hvalid) hconverter hf hstatement hnull
  refine ⟨e, es, hread, fun x h hx hcode => ?_⟩
  obtain ⟨v, vs, hall, hlength, hlast⟩ := Expr.evaluateAll_of_joined hx
  have hreply : engine.evaluate (d.session.captureScript statement) d.state = Embedded.conversion f v h :=
    heval.trans (Embedded.reply_of_values hall hcode)
  refine ⟨v, vs, hall, hlast, ?_, d.captured engine statement, rfl, congrArg Reply.state hreply, ?_, ?_⟩
  · rintro rfl
    obtain rfl := List.length_eq_zero_iff.1 hlength
    exact hlast
  · rw [outcome_register_eq engine statement d hgeneration, hreply]
  · intro shape hvoid
    rw [outcome_evaluateAs_eq engine statement d hgeneration hvoid, hreply]

end Session

-- A comma makes two arguments of one expression, and a comment hides the end of the call.
example : (Program.ofBody "return convert(1,2);".toList).isOk = true ∧
    (Program.ofBody "return convert(1 // one);".toList).isOk = false := by
  decide +kernel

end ScriptBridge
