import ScriptBridge.Proofs.Gating

/-! Histories of a world: its runs, with a record of what the sessions were asked and what they answered. The
generation of a session is the number of installations in its history, and one more after an adoption, which can
only come first. -/
namespace ScriptBridge

variable {σ : Type} {E : Engine σ}

/-- All that a session can be asked: operations over its engine, and what is answered without the engine. -/
inductive Act where
  | operation (op : Operation)
  | lookup (h : Handle)
  | standIn (c : Capability) (h : Handle)
  | rootStandIn (c : Capability)
  | query {c : Capability} (s : StandIn c) (d : Capability)
  | retype (r : Reference) (name : String)
  | owns (r : Reference)

namespace Raise

theorem length_eq (l : List Raise) : l.length = l.count .installed + l.count .adopted := by
  induction l with
  | nil => rfl
  | cons r l ih => cases r <;> simp [ih] <;> omega

/-- If only the first raise can be an adoption, then there is no other. -/
theorem count_adopted_le {l : List Raise} (h : .adopted ∉ l.tail) : l.count .adopted ≤ 1 := by
  cases l with
  | nil => exact Nat.zero_le 1
  | cons r l =>
    have hnone : l.count .adopted = 0 := List.count_eq_zero.2 h
    rw [List.count_cons, hnone]
    split <;> omega

end Raise

namespace Act

def Answer : Act → Type
  | operation op => op.Answer
  | lookup _ => String
  | standIn c _ => StandIn c
  | rootStandIn c => StandIn c
  | query _ d => StandIn d
  | retype .. => Reference
  | owns _ => Bool

def action (E : Engine σ) : (a : Act) → Work σ a.Answer
  | operation op => op.action E
  | lookup h => do return (← Work.session).lookup h
  | standIn c h => do return (← Work.session).standIn c h
  | rootStandIn c => do return (← Work.session).rootStandIn c
  | query s d => return s.query d
  | retype r name => return r.withCapability name
  | owns r => do return (← Work.session).owns r

/-- The raise that an answer stands for, given the generation in which the act was begun. -/
def raise? : (a : Act) → Nat → Except BridgeError a.Answer → Option Raise
  | operation op, generation, x => op.raise? generation x
  | _, _, _ => none

/-- An installation answers with the generation that it has made. -/
def Tells : (a : Act) → Nat → Except BridgeError a.Answer → Prop
  | operation op, generation, x => op.Tells generation x
  | _, _, _ => True

/-- The session behind an act is the one before it, or the next where the answer stands for a raise. -/
theorem session_after (a : Act) (E : Engine σ) (d : Desk σ) :
    (outcome (a.action E) d).2.session =
        (a.raise? d.session.generation (outcome (a.action E) d).1).elim d.session (fun _ => d.session.next) ∧
      a.Tells d.session.generation (outcome (a.action E) d).1 := by
  cases a with
  | operation op => exact op.session_after E d
  | _ => exact ⟨rfl, trivial⟩

/-- Only a session that has had no table adopts one. -/
theorem eq_zero_of_adopted {a : Act} {generation : Nat} {x : Except BridgeError a.Answer}
    (h : a.raise? generation x = some .adopted) : generation = 0 := by
  cases a with
  | operation op => exact op.eq_zero_of_adopted h
  | _ => cases h

end Act

namespace World

/-- What the history of a world records of an act. -/
structure Entry where
  seat : SessionId
  /-- when the act was begun -/
  generation : Nat
  act : Act
  answer : Except BridgeError act.Answer

def Entry.raise? (e : Entry) : Option Raise := e.act.raise? e.generation e.answer

/-- The raises of one session, first to last. -/
def raises (i : SessionId) (log : List Entry) : List Raise :=
  log.filterMap fun e => if e.seat = i then e.raise? else none

@[simp] theorem raises_append (i : SessionId) (log entries : List Entry) :
    raises i (log ++ entries) = raises i log ++ raises i entries :=
  List.filterMap_append

theorem raises_singleton (i : SessionId) (e : Entry) :
    raises i [e] = if e.seat = i then e.raise?.toList else [] := by
  unfold raises
  split <;> cases h : e.raise? <;> simp [*]

/-- A step of a world and the record of it. -/
inductive Move (E : Engine σ) : World σ → List Entry → World σ → Prop
  | addEngine (w : World σ) (state : σ) : Move E w [] (w.addEngine state).1
  | addSession {w v : World σ} {i : SessionId} {engine : Nat} {link : Link} {c : Config}
      (hengine : engine < w.berths.length) (h : w.addSession engine link c = .ok (v, i)) : Move E w [] v
  | dropEngine (w : World σ) (i : SessionId) : Move E w [] (w.dropEngine i)
  | outside (w : World σ) (engine : Nat) (state : σ) : Move E w [] (w.setState engine state)
  | act {w : World σ} {i : SessionId} {s : Seat} {a : Act} {o : Outcome σ (Except BridgeError a.Answer)}
      (hs : w.seat? i = some s) (h : w.run E i (fun F => (a.action F).run) = some o) :
      Move E w [⟨i, s.session.generation, a, o.result⟩] o.world

/-- A world and the record of everything that its sessions were asked. -/
inductive History (E : Engine σ) : World σ → List Entry → Prop
  | start : History E empty []
  | move {w v : World σ} {log entries : List Entry} (h : History E w log) (m : Move E w entries v) :
      History E v (log ++ entries)

/-- What the session answers by itself leaves the world as it is. -/
private theorem run_own {α : Type} {w : World σ} {i : SessionId} {f : Session → α}
    {o : Outcome σ (Except BridgeError α)}
    (h : w.run E i (fun _ => (do return f (← Work.session) : Work σ α).run) = some o) : o.world = w := by
  obtain ⟨s, b, hs, hb⟩ := exists_of_run h
  rw [run_eq hs hb] at h
  cases h
  exact (congrArg (setSession · i s.session) (setState_self hb)).trans (setSession_self hs)

/-- The record adds nothing to what a world does. -/
theorem Move.steps {w v : World σ} {entries : List Entry} (m : Move E w entries v) : Steps E w v := by
  cases m with
  | addEngine state => exact .single (.addEngine w state)
  | addSession hengine h => exact .single (.addSession hengine h)
  | dropEngine i => exact .single (.dropEngine w i)
  | outside k x => exact .single (.outside w k x)
  | @act i s a o hs h =>
    cases a with
    | operation op =>
      obtain ⟨s, b, hs, hb⟩ := exists_of_run h
      have hstep : Step E w ((w.setState s.engine _).setSession i _) :=
        .act (run_eq hs hb fun F => modify (op.perform F))
      rw [run_eq hs hb] at h
      cases h
      have hperform := op.perform_eq (w.connection E s) ⟨s.session, b.state, []⟩
      exact .single (hperform ▸ hstep)
    | lookup x => exact (run_own h) ▸ .refl
    | standIn c x => exact (run_own h) ▸ .refl
    | rootStandIn c => exact (run_own h) ▸ .refl
    | query x d => exact (run_own (f := fun _ => x.query d) h) ▸ .refl
    | retype r name => exact (run_own (f := fun _ => r.withCapability name) h) ▸ .refl
    | owns r => exact (run_own h) ▸ .refl

theorem History.steps {w : World σ} {log : List Entry} (h : History E w log) : Steps E empty w := by
  induction h with
  | start => exact .refl
  | move _ m ih => exact ih.trans m.steps

/-- Every run of a world has a history. -/
theorem Steps.exists_history {w : World σ} (h : Steps E empty w) : ∃ log, History E w log := by
  induction h with
  | refl => exact ⟨[], .start⟩
  | @tail w v _ hstep ih =>
    obtain ⟨log, h⟩ := ih
    suffices ∃ entries, Move E w entries v from this.elim fun entries m => ⟨_, h.move m⟩
    cases hstep with
    | addEngine state => exact ⟨_, .addEngine w state⟩
    | addSession hengine h => exact ⟨_, .addSession hengine h⟩
    | dropEngine i => exact ⟨_, .dropEngine w i⟩
    | outside k x => exact ⟨_, .outside w k x⟩
    | @act i op o h =>
      obtain ⟨s, b, hs, hb⟩ := exists_of_run h
      have hmove : Move E w _ ((w.setState s.engine _).setSession i _) :=
        .act (a := .operation op) hs (run_eq hs hb _)
      rw [run_eq hs hb] at h
      cases h
      have hperform := op.perform_eq (w.connection E s) ⟨s.session, b.state, []⟩
      exact ⟨_, hperform ▸ hmove⟩

/-- An act changes the session of its own seat only. -/
theorem run_act {w : World σ} {i : SessionId} {s : Seat} (hw : w.Seated) (hs : w.seat? i = some s) (a : Act) :
    ∃ o, w.run E i (fun F => (a.action F).run) = some o ∧ a.Tells s.session.generation o.result ∧
      o.world.seat? i = some { s with
        session := (a.raise? s.session.generation o.result).elim s.session fun _ => s.session.next } ∧
      ∀ j, j ≠ i → o.world.seat? j = w.seat? j := by
  obtain ⟨b, hb⟩ : ∃ b, w.berth? s.engine = some b := ⟨_, List.getElem?_eq_getElem (hw.berthed hs)⟩
  obtain ⟨hsession, htells⟩ := a.session_after (w.connection E s) ⟨s.session, b.state, []⟩
  refine ⟨_, run_eq hs hb _, htells, ?_, fun j hj => ?_⟩
  · rw [seat?_setSession, seat?_setState, hs, Option.map_some, if_pos rfl]
    exact congrArg (fun t => some { s with session := t }) hsession
  · simp [seat?_setSession, Ne.symm hj]

/-- The generation of a session is the number of its raises, and only the first of them can be an adoption. -/
structure Counted (w : World σ) (log : List Entry) : Prop where
  generation : ∀ {i s}, w.seat? i = some s → s.session.generation = (raises i log).length
  unseated : ∀ {i}, w.seat? i = none → raises i log = []
  adopted : ∀ i, .adopted ∉ (raises i log).tail

namespace Counted

variable {w v : World σ} {log : List Entry}

theorem empty : Counted (World.empty : World σ) [] :=
  ⟨fun h => by simp [World.empty, seat?] at h, fun _ => rfl, fun _ => List.not_mem_nil⟩

theorem of_seats (h : Counted w log) (hv : ∀ j, v.seat? j = w.seat? j) : Counted v log :=
  ⟨fun hs => h.generation (hv _ ▸ hs), fun hs => h.unseated (hv _ ▸ hs), h.adopted⟩

theorem addSession {i : SessionId} {engine : Nat} {link : Link} {c : Config} (h : Counted w log)
    (hv : w.addSession engine link c = .ok (v, i)) : Counted v log := by
  unfold World.addSession at hv
  split at hv <;> cases hv
  rename_i s hnew
  obtain rfl := Session.new_eq_ok hnew
  refine ⟨fun {j t} ht => ?_, fun {j} hj => h.unseated ?_, h.adopted⟩
  · rcases seat?_concat ht with ht | ⟨rfl, rfl⟩
    · exact h.generation ht
    · rw [h.unseated (List.getElem?_eq_none (Nat.le_refl _))]
      rfl
  · rw [seat?, List.getElem?_eq_none_iff, List.length_append] at hj
    exact List.getElem?_eq_none (by omega)

private theorem adopted_append {l : List Raise} {r : Option Raise} (h : .adopted ∉ l.tail)
    (hr : r = some .adopted → l = []) : .adopted ∉ (l ++ r.toList).tail := by
  cases r with
  | none => simpa using h
  | some r =>
    cases l with
    | nil => exact List.not_mem_nil
    | cons x l =>
      have hlast : r ≠ .adopted := fun hr' => List.cons_ne_nil _ _ (hr (congrArg some hr'))
      simp only [List.tail_cons, List.cons_append, Option.toList_some, List.mem_append, List.mem_singleton] at h ⊢
      exact fun hl => hl.elim h fun hl => hlast hl.symm

theorem act {i : SessionId} {s : Seat} {a : Act} {o : Outcome σ (Except BridgeError a.Answer)}
    (h : Counted w log) (hw : w.Seated) (hs : w.seat? i = some s)
    (ho : w.run E i (fun F => (a.action F).run) = some o) :
    Counted o.world (log ++ [⟨i, s.session.generation, a, o.result⟩]) := by
  obtain ⟨o', ho', -, hown, hother⟩ := run_act (E := E) hw hs a
  obtain rfl : o = o' := Option.some.inj (ho.symm.trans ho')
  have hlength := h.generation hs
  refine ⟨fun {j t} ht => ?_, fun {j} hj => ?_, fun j => ?_⟩ <;> by_cases hij : i = j <;>
    simp only [raises_append, raises_singleton, hij, if_true, if_false, List.append_nil]
  · subst hij
    obtain rfl := Option.some.inj (hown.symm.trans ht)
    rw [List.length_append, ← hlength]
    cases hr : a.raise? s.session.generation o.result <;> simp [Entry.raise?, hr, Session.next]
  · exact h.generation (hother j (Ne.symm hij) ▸ ht)
  · subst hij
    simp [hown] at hj
  · exact h.unseated (hother j (Ne.symm hij) ▸ hj)
  · subst hij
    refine adopted_append (h.adopted i) fun hr => List.eq_nil_of_length_eq_zero ?_
    exact hlength.symm.trans (Act.eq_zero_of_adopted hr)
  · exact h.adopted j

theorem move {entries : List Entry} (h : Counted w log) (hw : w.Seated) (m : Move E w entries v) :
    Counted v (log ++ entries) := by
  cases m with
  | addEngine state => exact log.append_nil.symm ▸ h.of_seats fun _ => rfl
  | addSession hengine hv => exact log.append_nil.symm ▸ h.addSession hv
  | dropEngine i => exact log.append_nil.symm ▸ h.of_seats (seat?_dropEngine w i)
  | outside k x => exact log.append_nil.symm ▸ h.of_seats fun _ => rfl
  | act hs ho => exact h.act hw hs ho

end Counted

theorem History.counted {w : World σ} {log : List Entry} (h : History E w log) : Counted w log := by
  induction h with
  | start => exact .empty
  | move h m ih => exact ih.move (h.steps.seated .empty) m

/-- In every world that a history leads to: no generation falls whatever comes next; each act at a seat answers, takes
the session to its next generation exactly when the answer stands for a raise, and touches no other seat; and the
generation of a session is the number of its installations and of its adoptions, of which there is at most one, before
any installation. -/
theorem generation_law {w : World σ} {log : List Entry} (h : History E w log) :
    (∀ v, Steps E w v → w.Before v) ∧
    (∀ i s, w.seat? i = some s → ∀ a : Act, ∃ o, w.run E i (fun F => (a.action F).run) = some o ∧
      a.Tells s.session.generation o.result ∧
      o.world.seat? i = some { s with
        session := (a.raise? s.session.generation o.result).elim s.session fun _ => s.session.next } ∧
      ∀ j, j ≠ i → o.world.seat? j = w.seat? j) ∧
    ∀ i s, w.seat? i = some s →
      s.session.generation = (raises i log).count .installed + (raises i log).count .adopted ∧
      (raises i log).count .adopted ≤ 1 ∧ .adopted ∉ (raises i log).tail := by
  refine ⟨fun v hv => hv.before, fun i s hs a => run_act (h.steps.seated .empty) hs a, fun i s hs => ?_⟩
  have hfirst := h.counted.adopted i
  exact ⟨(h.counted.generation hs).trans (Raise.length_eq _), Raise.count_adopted_le hfirst, hfirst⟩

/-- A table is adopted, installed over, and asked for again when the engine is gone. -/
theorem generation_law_disconnected :
    let E : Engine Unit := ⟨fun _ x => ⟨.ok (.bool true), x, []⟩, fun _ x => ⟨.ok (), x, []⟩⟩
    let w : World Unit := ⟨[⟨(), false⟩], [⟨⟨0, {}, 2⟩, 0, .weak⟩]⟩
    let log : List Entry :=
      [⟨0, 0, .operation .ensureInstalled, .ok false⟩, ⟨0, 1, .operation .install, .ok (2 : Nat)⟩,
        ⟨0, 2, .operation .install, .error (.engine .disconnected)⟩]
    History E w log ∧ raises 0 log = [.adopted, .installed] ∧
      2 = (raises 0 log).count .installed + (raises 0 log).count .adopted := by
  intro E w log
  have hfault : Config.fault? {} = none := by decide
  have hnew : Session.new 0 {} = .ok ⟨0, {}, 0⟩ := by simp [Session.new, Config.validate, hfault]
  have hengine : History E ⟨[⟨(), true⟩], []⟩ [] := .move .start (.addEngine _ ())
  have hsession : History E ⟨[⟨(), true⟩], [⟨⟨0, {}, 0⟩, 0, .weak⟩]⟩ [] :=
    hengine.move (.addSession Nat.one_pos
      (show World.addSession _ 0 .weak {} = .ok (_, 0) by simp [World.addSession, hnew]))
  have hadopted : History E ⟨[⟨(), true⟩], [⟨⟨0, {}, 1⟩, 0, .weak⟩]⟩
      [⟨0, 0, .operation .ensureInstalled, .ok false⟩] :=
    hsession.move
      (.act (s := ⟨⟨0, {}, 0⟩, 0, .weak⟩) (a := .operation .ensureInstalled) (o := ⟨.ok false, _, _⟩) rfl rfl)
  have hinstalled : History E ⟨[⟨(), true⟩], [⟨⟨0, {}, 2⟩, 0, .weak⟩]⟩
      [⟨0, 0, .operation .ensureInstalled, .ok false⟩, ⟨0, 1, .operation .install, .ok (2 : Nat)⟩] :=
    hadopted.move
      (.act (s := ⟨⟨0, {}, 1⟩, 0, .weak⟩) (a := .operation .install) (o := ⟨.ok (2 : Nat), _, _⟩) rfl rfl)
  have h : History E w log :=
    (hinstalled.move (.dropEngine _ 0)).move
      (.act (s := ⟨⟨0, {}, 2⟩, 0, .weak⟩) (a := .operation .install) (o := ⟨.error (.engine .disconnected), _, _⟩)
        rfl rfl)
  exact ⟨h, rfl, ((generation_law h).2.2 0 _ rfl).1⟩

end World
end ScriptBridge
