import ScriptBridge.Engine

/-! Several sessions over several engines. A session holds its engine alive, or it only knows of it; an
engine lives as long as its owner or some session holds it. -/
namespace ScriptBridge

/-- How a session is tied to its engine. -/
inductive Link where
  /-- holds the engine -/
  | strong
  /-- holds it together with others -/
  | shared
  /-- does not hold it -/
  | weak
  deriving DecidableEq, Repr, Inhabited

def Link.holds : Link → Bool
  | .weak => false
  | _ => true

/-- An engine's state, and whether its owner still holds it. -/
structure Berth (σ : Type) where
  state : σ
  owned : Bool

/-- A session with the number of its engine. -/
structure Seat where
  session : Session
  engine : Nat
  link : Link

/-- Sessions and engines are numbered as they are made. -/
structure World (σ : Type) where
  berths : List (Berth σ)
  seats : List Seat

namespace World

variable {σ : Type}

def empty : World σ := ⟨[], []⟩

def seat? (w : World σ) (i : SessionId) : Option Seat := w.seats[i]?

def berth? (w : World σ) (k : Nat) : Option (Berth σ) := w.berths[k]?

/-- The engine of a session. -/
def berthOf? (w : World σ) (i : SessionId) : Option (Berth σ) :=
  (w.seat? i).bind fun s => w.berth? s.engine

/-- Whether an engine is still held by anyone. -/
def isAlive (w : World σ) (k : Nat) : Bool :=
  (match w.berth? k with
    | some b => b.owned
    | none => false)
  || w.seats.any fun s => s.engine == k && s.link.holds

/-- The connection of a seat: its engine, or none behind a lost one. -/
def connection (E : Engine σ) (w : World σ) (s : Seat) : Engine σ :=
  if s.link.holds || w.isAlive s.engine then E else .disconnected σ

def setState (w : World σ) (k : Nat) (state : σ) : World σ :=
  { w with berths := w.berths.modify k fun b => { b with state } }

def setSession (w : World σ) (i : SessionId) (session : Session) : World σ :=
  { w with seats := w.seats.modify i fun s => { s with session } }

/-- Makes an engine, held by its owner. -/
def addEngine (w : World σ) (state : σ) : World σ × Nat :=
  ({ w with berths := w.berths ++ [⟨state, true⟩] }, w.berths.length)

/-- Makes a session over an engine, when its configuration is valid. -/
def addSession (w : World σ) (engine : Nat) (link : Link) (c : Config) :
    Except ConfigFault (World σ × SessionId) :=
  match Session.new w.seats.length c with
  | .ok s => .ok ({ w with seats := w.seats ++ [⟨s, engine, link⟩] }, w.seats.length)
  | .error f => .error f

/-- The owner lets go of a session's engine. -/
def dropEngine (w : World σ) (i : SessionId) : World σ :=
  match w.seat? i with
  | some s => { w with berths := w.berths.modify s.engine fun b => { b with owned := false } }
  | none => w

/-- Changes the state of a session's engine from the owner's side; `none` when the owner has let go. -/
def onEngine {α : Type} (w : World σ) (i : SessionId) (f : σ → α × σ) : Option (α × World σ) := do
  let s ← w.seat? i
  let b ← w.berth? s.engine
  if b.owned then
    let (x, state) := f b.state
    some (x, w.setState s.engine state)
  else none

/-- What an action of one session gives, with the trail it leaves. -/
structure Outcome (σ α : Type) where
  result : α
  trail : List Mark
  world : World σ

/-- Runs a session's action, which gets the connection of the session's seat. -/
def run {α : Type} (E : Engine σ) (w : World σ) (i : SessionId) (a : Engine σ → StateM (Desk σ) α) :
    Option (Outcome σ α) := do
  let s ← w.seat? i
  let b ← w.berth? s.engine
  let (result, desk) := (a (w.connection E s)).run ⟨s.session, b.state, []⟩
  some ⟨result, desk.trail, (w.setState s.engine desk.state).setSession i desk.session⟩

end World
end ScriptBridge
