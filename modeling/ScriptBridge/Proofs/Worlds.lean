import Mathlib.Logic.Relation
import ScriptBridge.Proofs.Minting
import ScriptBridge.World

/-! Runs of a world: sessions and engines come, sessions act in any order over engines that answer as they
like, and engines change and go away. A seat never changes its session's number or configuration, and its
generation never falls. -/
namespace ScriptBridge

variable {σ α : Type}

/-- What a session can be asked to do over its engine. -/
inductive Operation where
  | install
  | ensureInstalled
  | isInstalled
  | tableLength
  | register (expression : String)
  | evaluateAs (expression : String) (shape : Shape)
  | bind (c : Capability) (expression : String)
  | dispatch (target : Reference) (member : String) (args : List Native) (shape : Shape)
  | dispatchOrNull (target : Reference) (member : String) (args : List Native) (shape : Shape)
  | call (target : Reference) (member : String) (args : List Native) (t : ResultType)
  | supported (registry : Registry) (r : Reference)

/-- The desk as an operation leaves it, whether it succeeds or fails. -/
def Operation.perform (E : Engine σ) (d : Desk σ) : Operation → Desk σ
  | install => (outcome (Session.install E) d).2
  | ensureInstalled => (outcome (Session.ensureInstalled E) d).2
  | isInstalled => (outcome (Session.isInstalled E) d).2
  | tableLength => (outcome (Session.tableLength E) d).2
  | register expression => (outcome (Session.register E expression) d).2
  | evaluateAs expression shape => (outcome (Session.evaluateAs E expression shape) d).2
  | bind c expression => (outcome (Session.bind E c expression) d).2
  | dispatch target member args shape => (outcome (Dispatch.dispatch E target member args shape) d).2
  | dispatchOrNull target member args shape => (outcome (Dispatch.dispatchOrNull E target member args shape) d).2
  | call target member args t => (outcome (Dispatch.call E target member args t) d).2
  | supported registry r => ((Probe.supported E registry r).run d).2

/-- One session is another at the same time or later. -/
structure Session.Before (s t : Session) : Prop where
  id : t.id = s.id
  config : t.config = s.config
  generation : s.generation ≤ t.generation

namespace Session.Before

theorem refl (s : Session) : s.Before s := ⟨rfl, rfl, Nat.le_refl _⟩

theorem of_eq {s t : Session} (h : t = s) : s.Before t := h ▸ refl s

theorem next (s : Session) : s.Before s.next := ⟨rfl, rfl, Nat.le_succ _⟩

theorem trans {s t u : Session} (h : s.Before t) (k : t.Before u) : s.Before u :=
  ⟨k.id.trans h.id, k.config.trans h.config, Nat.le_trans h.generation k.generation⟩

end Session.Before

/-- How an operation raises the generation of its session: a table is installed, or one that is there is adopted. -/
inductive Raise where
  | installed | adopted
  deriving DecidableEq

namespace Operation

/-- What an operation answers when it succeeds. -/
def Answer : Operation → Type
  | install => Nat
  | ensureInstalled => Bool
  | isInstalled => Bool
  | tableLength => UInt64
  | register _ => Option Handle
  | evaluateAs .. => Native
  | bind c _ => Option (StandIn c)
  | dispatch .. => Native
  | dispatchOrNull .. => Native
  | call _ _ _ t => t.Carrier
  | supported .. => List String

/-- The action of an operation. -/
def action (E : Engine σ) : (op : Operation) → Work σ op.Answer
  | install => Session.install E
  | ensureInstalled => Session.ensureInstalled E
  | isInstalled => Session.isInstalled E
  | tableLength => Session.tableLength E
  | register expression => Session.register E expression
  | evaluateAs expression shape => Session.evaluateAs E expression shape
  | bind c expression => Session.bind E c expression
  | dispatch target member args shape => Dispatch.dispatch E target member args shape
  | dispatchOrNull target member args shape => Dispatch.dispatchOrNull E target member args shape
  | call target member args t => Dispatch.call E target member args t
  | supported registry r => monadLift (Probe.supported E registry r)

theorem perform_eq (E : Engine σ) (d : Desk σ) (op : Operation) :
    op.perform E d = (outcome (op.action E) d).2 := by
  cases op <;> rfl

/-- The raise that an answer stands for, given the generation in which the operation was begun. -/
def raise? : (op : Operation) → Nat → Except BridgeError op.Answer → Option Raise
  | install, _, .ok _ => some .installed
  | ensureInstalled, _, .ok true => some .installed
  | ensureInstalled, 0, .ok false => some .adopted
  | _, _, _ => none

/-- An installation answers with the generation that it has made. -/
def Tells : (op : Operation) → Nat → Except BridgeError op.Answer → Prop
  | install, generation, .ok n => n = generation + 1
  | _, _, _ => True

theorem eq_zero_of_adopted (op : Operation) {generation : Nat} {x : Except BridgeError op.Answer}
    (h : op.raise? generation x = some .adopted) : generation = 0 := by
  unfold raise? at h
  split at h <;> cases h
  rfl

/-- The session behind an operation is the one before it, or the next where the answer stands for a raise. -/
theorem session_after (op : Operation) (E : Engine σ) (d : Desk σ) :
    (outcome (op.action E) d).2.session =
        (op.raise? d.session.generation (outcome (op.action E) d).1).elim d.session (fun _ => d.session.next) ∧
      op.Tells d.session.generation (outcome (op.action E) d).1 := by
  cases op with
  | install =>
    change (outcome (Session.install E) d).2.session =
        (raise? install d.session.generation (outcome (Session.install E) d).1).elim d.session
          (fun _ => d.session.next) ∧ Tells install _ (outcome (Session.install E) d).1
    rcases Session.install_outcome (E := E) d with ⟨e, t, h, hs⟩ | ⟨t, h, hs⟩ <;> rw [h]
    · exact ⟨hs, trivial⟩
    · exact ⟨hs, rfl⟩
  | ensureInstalled =>
    change (outcome (Session.ensureInstalled E) d).2.session =
        (raise? ensureInstalled d.session.generation (outcome (Session.ensureInstalled E) d).1).elim d.session
          (fun _ => d.session.next) ∧ True
    rcases Session.ensureInstalled_outcome (E := E) d with ⟨e, t, h, hs⟩ | ⟨t, h, hs⟩ | ⟨t, h, hs⟩ <;> rw [h]
    · exact ⟨hs, trivial⟩
    · exact ⟨hs, trivial⟩
    · -- a table was found: it is adopted by a session that has had none
      refine ⟨hs.trans ?_, trivial⟩
      cases d.session.generation with
      | zero => rfl
      | succ n => rfl
  | isInstalled => exact ⟨Session.isInstalled_keeps d, trivial⟩
  | tableLength => exact ⟨Session.tableLength_keeps d, trivial⟩
  | register expression => exact ⟨Session.register_keeps expression d, trivial⟩
  | evaluateAs expression shape => exact ⟨Session.evaluateAs_keeps expression shape d, trivial⟩
  | bind c expression => exact ⟨Session.bind_keeps c expression d, trivial⟩
  | dispatch target member args shape => exact ⟨Dispatch.dispatch_keeps target member args shape d, trivial⟩
  | dispatchOrNull target member args shape =>
    exact ⟨Dispatch.dispatchOrNull_keeps target member args shape d, trivial⟩
  | call target member args t => exact ⟨Dispatch.call_keeps target member args t d, trivial⟩
  | supported registry r => exact ⟨Probe.supported_keeps registry r d, trivial⟩

theorem perform_before (E : Engine σ) (d : Desk σ) (op : Operation) :
    d.session.Before (op.perform E d).session := by
  obtain ⟨hsession, -⟩ := op.session_after E d
  rw [perform_eq, hsession]
  cases op.raise? d.session.generation (outcome (op.action E) d).1 with
  | none => exact .refl _
  | some r => exact .next _

end Operation

theorem Session.new_eq_ok {id : SessionId} {c : Config} {s : Session} (h : Session.new id c = .ok s) :
    s = ⟨id, c, 0⟩ := by
  unfold Session.new at h
  split at h <;> cases h
  rfl

namespace World

variable {E : Engine σ}

/-- One step of a world. What goes on in an engine between two operations is anyone's, and it may change
the state as it likes. -/
inductive Step (E : Engine σ) : World σ → World σ → Prop
  | addEngine (w : World σ) (state : σ) : Step E w (w.addEngine state).1
  | addSession {w v : World σ} {i : SessionId} {engine : Nat} {link : Link} {c : Config}
      (hengine : engine < w.berths.length) (h : w.addSession engine link c = .ok (v, i)) : Step E w v
  | dropEngine (w : World σ) (i : SessionId) : Step E w (w.dropEngine i)
  | outside (w : World σ) (engine : Nat) (state : σ) : Step E w (w.setState engine state)
  | act {w : World σ} {i : SessionId} {op : Operation} {o : Outcome σ Unit}
      (h : w.run E i (fun F => modify (op.perform F)) = some o) : Step E w o.world

abbrev Steps (E : Engine σ) : World σ → World σ → Prop := Relation.ReflTransGen (Step E)

/-- Seats are numbered as they are made, and each has an engine. -/
structure Seated (w : World σ) : Prop where
  numbered : ∀ {i s}, w.seat? i = some s → s.session.id = i
  berthed : ∀ {i s}, w.seat? i = some s → s.engine < w.berths.length

/-- The seats of one world are those of another at a later time. -/
def Before (w v : World σ) : Prop :=
  ∀ i s, w.seat? i = some s → ∃ t, v.seat? i = some t ∧ s.session.Before t.session

theorem Before.refl (w : World σ) : w.Before w := fun _ s hs => ⟨s, hs, .refl _⟩

theorem Before.trans {u v w : World σ} (h : u.Before v) (k : v.Before w) : u.Before w := by
  intro i s hs
  obtain ⟨t, ht, hst⟩ := h i s hs
  obtain ⟨r, hr, htr⟩ := k i t ht
  exact ⟨r, hr, hst.trans htr⟩

@[simp] theorem seat?_setState (w : World σ) (k i : Nat) (x : σ) : (w.setState k x).seat? i = w.seat? i := rfl

@[simp] theorem length_setState (w : World σ) (k : Nat) (x : σ) :
    (w.setState k x).berths.length = w.berths.length := by simp [setState]

theorem seat?_setSession (w : World σ) (i j : SessionId) (t : Session) :
    (w.setSession i t).seat? j = (w.seat? j).map fun s => if i = j then { s with session := t } else s := by
  simp only [setSession, seat?, List.getElem?_modify]
  split <;> rfl

theorem seat?_concat {w : World σ} {s t : Seat} {j : Nat}
    (h : (⟨w.berths, w.seats ++ [s]⟩ : World σ).seat? j = some t) :
    w.seat? j = some t ∨ j = w.seats.length ∧ t = s := by
  rw [seat?, List.getElem?_append] at h
  split at h
  · exact .inl h
  · rw [List.getElem?_singleton] at h
    split at h <;> cases h
    exact .inr ⟨by omega, rfl⟩

theorem seat?_dropEngine (w : World σ) (i j : SessionId) : (w.dropEngine i).seat? j = w.seat? j := by
  unfold dropEngine
  split <;> rfl

theorem length_dropEngine (w : World σ) (i : SessionId) : (w.dropEngine i).berths.length = w.berths.length := by
  unfold dropEngine
  split <;> simp

/-- An action runs at its seat, over the seat's connection. -/
theorem run_eq {w : World σ} {i : SessionId} {s : Seat} {b : Berth σ} (hs : w.seat? i = some s)
    (hb : w.berth? s.engine = some b) (a : Engine σ → StateM (Desk σ) α) :
    w.run E i a = some
      { result := ((a (w.connection E s)).run ⟨s.session, b.state, []⟩).1
        trail := ((a (w.connection E s)).run ⟨s.session, b.state, []⟩).2.trail
        world := (w.setState s.engine ((a (w.connection E s)).run ⟨s.session, b.state, []⟩).2.state).setSession i
          ((a (w.connection E s)).run ⟨s.session, b.state, []⟩).2.session } := by
  simp only [run, hs, hb, Option.bind_eq_bind, Option.bind_some]
  rfl

theorem exists_of_run {w : World σ} {i : SessionId} {a : Engine σ → StateM (Desk σ) α} {o : Outcome σ α}
    (h : w.run E i a = some o) : ∃ s b, w.seat? i = some s ∧ w.berth? s.engine = some b := by
  unfold run at h
  rcases hs : w.seat? i with _ | s
  · simp [hs] at h
  · rcases hb : w.berth? s.engine with _ | b
    · simp [hs, hb] at h
    · exact ⟨s, b, rfl, hb⟩

/-- An action that takes its session forward takes every seat forward, and no seat changes its engine. -/
private theorem run_seats {w : World σ} {i : SessionId} {a : Engine σ → StateM (Desk σ) α} {o : Outcome σ α}
    (ha : ∀ F (d : Desk σ), d.session.Before ((a F).run d).2.session) (h : w.run E i a = some o) (j : SessionId) :
    ∃ f : Seat → Seat, o.world.seat? j = (w.seat? j).map f ∧
      ∀ s, w.seat? j = some s → s.session.Before (f s).session ∧ (f s).engine = s.engine := by
  obtain ⟨s, b, hs, hb⟩ := exists_of_run h
  rw [run_eq hs hb] at h
  cases h
  refine ⟨_, by rw [seat?_setSession, seat?_setState], fun t ht => ?_⟩
  by_cases hij : i = j
  · subst hij
    obtain rfl : s = t := Option.some.inj (hs.symm.trans ht)
    simpa using ha (w.connection E s) ⟨s.session, b.state, []⟩
  · simp [hij, Session.Before.refl]

private theorem run_length {w : World σ} {i : SessionId} {a : Engine σ → StateM (Desk σ) α} {o : Outcome σ α}
    (h : w.run E i a = some o) : o.world.berths.length = w.berths.length := by
  obtain ⟨s, b, hs, hb⟩ := exists_of_run h
  rw [run_eq hs hb] at h
  cases h
  simp [setSession]

theorem run_before {w : World σ} {i : SessionId} {a : Engine σ → StateM (Desk σ) α} {o : Outcome σ α}
    (ha : ∀ F (d : Desk σ), d.session.Before ((a F).run d).2.session) (h : w.run E i a = some o) :
    w.Before o.world := by
  intro j s hs
  obtain ⟨f, hf, hmap⟩ := run_seats ha h j
  exact ⟨f s, by rw [hf, hs]; rfl, (hmap s hs).1⟩

theorem run_seated {w : World σ} {i : SessionId} {a : Engine σ → StateM (Desk σ) α} {o : Outcome σ α}
    (ha : ∀ F (d : Desk σ), d.session.Before ((a F).run d).2.session) (h : w.run E i a = some o)
    (hw : w.Seated) : o.world.Seated := by
  constructor <;> intro j t ht <;> obtain ⟨f, hf, hmap⟩ := run_seats ha h j <;>
    obtain ⟨s, hs, rfl⟩ := Option.map_eq_some_iff.1 (hf.symm.trans ht)
  · exact (hmap s hs).1.id.trans (hw.numbered hs)
  · rw [(hmap s hs).2, run_length h]
    exact hw.berthed hs

theorem Step.before {w v : World σ} (h : Step E w v) : w.Before v := by
  cases h with
  | addEngine state => exact .refl w
  | addSession hengine h =>
    unfold World.addSession at h
    split at h <;> cases h
    intro j t ht
    refine ⟨t, ?_, .refl _⟩
    rw [seat?, List.getElem?_append_left (List.getElem?_eq_some_iff.1 ht).1]
    exact ht
  | dropEngine i => exact fun j t ht => ⟨t, by rwa [seat?_dropEngine], .refl _⟩
  | outside k x => exact .refl w
  | @act _ op _ h => exact run_before (a := fun F => modify (op.perform F)) (fun F d => op.perform_before F d) h

theorem Step.seated {w v : World σ} (h : Step E w v) (hw : w.Seated) : v.Seated := by
  cases h with
  | addEngine state =>
    exact ⟨hw.numbered, fun hs => by simpa [World.addEngine] using Nat.lt_succ_of_lt (hw.berthed hs)⟩
  | addSession hengine h =>
    unfold World.addSession at h
    split at h <;> cases h
    rename_i s hnew
    obtain rfl := Session.new_eq_ok hnew
    constructor <;> intro j t ht <;> rcases seat?_concat ht with h | ⟨rfl, rfl⟩
    · exact hw.numbered h
    · rfl
    · exact hw.berthed h
    · exact hengine
  | dropEngine i =>
    constructor <;> intro j t ht <;> rw [seat?_dropEngine] at ht
    · exact hw.numbered ht
    · rw [length_dropEngine]
      exact hw.berthed ht
  | outside k x => exact ⟨hw.numbered, fun hs => by simpa using hw.berthed hs⟩
  | @act _ op _ h => exact run_seated (a := fun F => modify (op.perform F)) (fun F d => op.perform_before F d) h hw

theorem Seated.empty : (empty : World σ).Seated :=
  ⟨fun h => by simp [World.empty, seat?] at h, fun h => by simp [World.empty, seat?] at h⟩

theorem Steps.before {w v : World σ} (h : Steps E w v) : w.Before v := by
  induction h with
  | refl => exact .refl w
  | tail _ hs ih => exact ih.trans hs.before

theorem Steps.seated {w v : World σ} (h : Steps E w v) (hw : w.Seated) : v.Seated := by
  induction h with
  | refl => exact hw
  | tail _ hs ih => exact hs.seated ih

end World
end ScriptBridge
