import ScriptBridge.Engine

/-! Outcomes: what an action that may fail gives in a state, and the state it leaves. Actions of sessions
and runs of scripts are both of this kind, and each step of one is read off by a rewriting rule. -/
namespace ScriptBridge

variable {ε S α β : Type}

/-- The result of an action, and the state in which it ends. -/
def outcome (a : ExceptT ε (StateM S) α) (s : S) : Except ε α × S := a.run.run s

@[simp] theorem outcome_pure (x : α) (s : S) : outcome (pure x : ExceptT ε (StateM S) α) s = (.ok x, s) := rfl

@[simp] theorem outcome_throw (e : ε) (s : S) :
    outcome (throw e : ExceptT ε (StateM S) α) s = (.error e, s) := rfl

@[simp] theorem outcome_get (s : S) : outcome (get : ExceptT ε (StateM S) S) s = (.ok s, s) := rfl

@[simp] theorem outcome_set (s t : S) : outcome (set t : ExceptT ε (StateM S) Unit) s = (.ok (), t) := rfl

@[simp] theorem outcome_modify (f : S → S) (s : S) :
    outcome (modify f : ExceptT ε (StateM S) Unit) s = (.ok (), f s) := rfl

theorem outcome_bind (a : ExceptT ε (StateM S) α) (f : α → ExceptT ε (StateM S) β) (s : S) :
    outcome (a >>= f) s = match outcome a s with
      | (.ok x, t) => outcome (f x) t
      | (.error e, t) => (.error e, t) := by
  simp only [outcome, bind, ExceptT.bind, ExceptT.mk, ExceptT.run, StateT.bind, StateT.run, ExceptT.bindCont]
  rcases a s with ⟨r | x, t⟩ <;> rfl

theorem outcome_bind_ok {a : ExceptT ε (StateM S) α} {f : α → ExceptT ε (StateM S) β} {s t : S} {x : α}
    (h : outcome a s = (.ok x, t)) : outcome (a >>= f) s = outcome (f x) t := by
  rw [outcome_bind, h]

theorem outcome_bind_error {a : ExceptT ε (StateM S) α} {f : α → ExceptT ε (StateM S) β} {s t : S} {e : ε}
    (h : outcome a s = (.error e, t)) : outcome (a >>= f) s = (.error e, t) := by
  rw [outcome_bind, h]

theorem outcome_bind_congr {a b : ExceptT ε (StateM S) α} {f : α → ExceptT ε (StateM S) β} {s : S}
    (h : outcome a s = outcome b s) : outcome (a >>= f) s = outcome (b >>= f) s := by
  rw [outcome_bind, outcome_bind, h]

theorem outcome_map (f : α → β) (a : ExceptT ε (StateM S) α) (s : S) :
    outcome (f <$> a) s = ((outcome a s).1.map f, (outcome a s).2) := by
  simp only [outcome, Functor.map, ExceptT.map, ExceptT.mk, ExceptT.run, StateT.bind, StateT.run, bind]
  rcases a s with ⟨r | x, t⟩ <;> rfl

/-- An action that cannot fail. -/
@[simp] theorem outcome_monadLift (a : StateM S α) (s : S) :
    outcome (monadLift a : ExceptT ε (StateM S) α) s = (.ok (a.run s).1, (a.run s).2) := rfl

theorem outcome_tryCatch (a : ExceptT ε (StateM S) α) (f : ε → ExceptT ε (StateM S) α) (s : S) :
    outcome (tryCatch a f) s = match outcome a s with
      | (.ok x, t) => (.ok x, t)
      | (.error e, t) => outcome (f e) t := by
  simp only [outcome, tryCatch, tryCatchThe, MonadExceptOf.tryCatch, ExceptT.tryCatch, ExceptT.mk, ExceptT.run,
    StateT.bind, StateT.run, bind]
  rcases a s with ⟨r | x, t⟩ <;> rfl

/-- An action succeeds with a step first exactly when the step succeeds and what follows does. -/
theorem outcome_bind_eq_ok {a : ExceptT ε (StateM S) α} {f : α → ExceptT ε (StateM S) β} {s u : S} {y : β} :
    outcome (a >>= f) s = (.ok y, u) ↔ ∃ x t, outcome a s = (.ok x, t) ∧ outcome (f x) t = (.ok y, u) := by
  rw [outcome_bind]
  rcases outcome a s with ⟨e | x, t⟩
  · simp
  · constructor
    · exact fun h => ⟨x, t, rfl, h⟩
    · rintro ⟨x', t', h, h'⟩
      cases h
      exact h'

namespace Work

variable {σ : Type}

@[simp] theorem outcome_session (d : Desk σ) : outcome (session : Work σ Session) d = (.ok d.session, d) := rfl

@[simp] theorem outcome_tell (e : Event) (d : Desk σ) :
    outcome (tell e : Work σ Unit) d = (.ok (), { d with trail := d.trail ++ [.event e] }) := rfl

@[simp] theorem outcome_tellAll (es : List Event) (d : Desk σ) :
    outcome (tellAll es : Work σ Unit) d = (.ok (), { d with trail := d.trail ++ es.map .event }) := rfl

@[simp] theorem outcome_nextGeneration (d : Desk σ) :
    outcome (nextGeneration : Work σ Nat) d = (.ok (d.session.generation + 1), { d with session := d.session.next }) :=
  rfl

@[simp] theorem outcome_require (c : Except BridgeError α) (d : Desk σ) :
    outcome (require c : Work σ α) d = (c, d) := by cases c <;> rfl

@[simp] theorem outcome_orThrow (r : Except EngineError α) (d : Desk σ) :
    outcome (orThrow r : Work σ α) d = (r.mapError .engine, d) := by simp [orThrow]

variable (E : Engine σ)

theorem outcome_evaluate (script : String) (d : Desk σ) :
    outcome (evaluate E script) d =
      ((E.evaluate script d.state).result.mapError .engine,
        (answered (.evaluate script) (E.evaluate script d.state) d).2) := by
  rw [evaluate, outcome_bind, outcome_monadLift]
  exact outcome_orThrow _ _

theorem outcome_execute (script : String) (d : Desk σ) :
    outcome (execute E script) d =
      ((E.execute script d.state).result.mapError .engine,
        (answered (.execute script) (E.execute script d.state) d).2) := by
  rw [execute, outcome_bind, outcome_monadLift]
  exact outcome_orThrow _ _

end Work
end ScriptBridge
