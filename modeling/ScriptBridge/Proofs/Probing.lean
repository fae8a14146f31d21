import ScriptBridge.Proofs.ProbeScripts
import ScriptBridge.Proofs.Requests

/-! Probing is exact. A registry keeps the first registration of each name; a usable reference is asked about each of
them once, in order; and what is answered are the names whose probe was answered by `true`. In an engine that keeps to
the language these are the capabilities all members of which the object has. -/
namespace ScriptBridge

namespace Registry

/-- The first capability of a name. -/
def find? (cs : List Capability) (name : String) : Option Capability := cs.find? fun c => c.name == name

theorem names_register (r : Registry) (c : Capability) :
    (r.register c).names = if c.name ∈ r.names then r.names else r.names ++ [c.name] := by
  have hknown : r.capabilities.any (fun d => d.name == c.name) = true ↔ c.name ∈ r.names := by
    simp [names]
  unfold register
  split
  · next h => rw [if_pos (hknown.1 h)]
  · next h =>
    rw [if_neg (mt hknown.2 h)]
    simp [names]

theorem find?_register (r : Registry) (c : Capability) (name : String) :
    find? (r.register c).capabilities name = (find? r.capabilities name).or (find? [c] name) := by
  unfold register
  split
  · next h =>
    -- A capability that is left out has the name of one that is there.
    cases hfound : find? r.capabilities name with
    | some d => rfl
    | none =>
      obtain ⟨d, hd, hname⟩ := List.any_eq_true.1 h
      have hother : (d.name == name) ≠ true := List.find?_eq_none.1 hfound d hd
      rw [beq_iff_eq.1 hname] at hother
      simp [find?, hother]
  · exact List.find?_append

theorem ofList_append_singleton (cs : List Capability) (c : Capability) :
    ofList (cs ++ [c]) = (ofList cs).register c := by
  rw [ofList, List.foldl_append]
  rfl

/-- The names stand in the order in which each was registered first. -/
theorem names_ofList (cs : List Capability) : (ofList cs).names = (cs.map Capability.name).eraseDups := by
  induction cs using List.reverseRecOn with
  | nil => rfl
  | append_singleton cs c ih =>
    rw [ofList_append_singleton, names_register, ih, List.map_append, List.eraseDups_append]
    by_cases hc : c.name ∈ cs.map Capability.name
    · have hnone : [c.name].removeAll (cs.map Capability.name) = [] := by rw [List.removeAll]; simpa using hc
      rw [if_pos (List.mem_eraseDups.2 hc), List.map_singleton, hnone, List.eraseDups_nil, List.append_nil]
    · have hall : [c.name].removeAll (cs.map Capability.name) = [c.name] := by rw [List.removeAll]; simpa using hc
      rw [if_neg (mt List.mem_eraseDups.1 hc), List.map_singleton, hall]
      rfl

/-- The members of a capability are those of its first registration. -/
theorem find?_ofList (cs : List Capability) (name : String) : find? (ofList cs).capabilities name = find? cs name := by
  induction cs using List.reverseRecOn with
  | nil => rfl
  | append_singleton cs c ih =>
    rw [ofList_append_singleton, find?_register, ih]
    exact List.find?_append.symm

end Registry

/-- What an engine replies to scripts that it is asked one after the other. -/
def Engine.replies {σ : Type} (E : Engine σ) : List String → σ → List (Reply σ Wire)
  | [], _ => []
  | script :: rest, state => E.evaluate script state :: E.replies rest (E.evaluate script state).state

namespace Probe

variable {σ : Type} {E : Engine σ}

/-- Of all replies only one says that a capability is supported. -/
def affirms (reply : Reply σ Wire) : Bool :=
  match reply.result with
  | .ok (.bool b) => b
  | _ => false

/-- The names of the capabilities whose probes are answered by `true`. -/
def affirmed (cs : List Capability) (replies : List (Reply σ Wire)) : List String :=
  ((cs.zip replies).filter fun p => affirms p.2).map fun p => p.1.name

theorem affirmed_cons (c : Capability) (cs : List Capability) (reply : Reply σ Wire) (replies : List (Reply σ Wire)) :
    affirmed (c :: cs) (reply :: replies) =
      if affirms reply then c.name :: affirmed cs replies else affirmed cs replies := by
  rw [affirmed, List.zip_cons_cons, List.filter_cons]
  split <;> rfl

theorem answer_affirms (c : Capability) (reply : Reply σ Wire) : (answer c reply.result).1 = affirms reply := by
  unfold affirms answer
  rcases reply.result with e | w
  · rfl
  · cases w <;> rfl

/-- The desk once the probe of a capability has been answered. -/
def asked (E : Engine σ) (target : List Char) (c : Capability) (d : Desk σ) : Desk σ :=
  let reply := E.evaluate (script target c.members) d.state
  let answered := (Work.answered (.evaluate (script target c.members)) reply d).2
  { answered with trail := answered.trail ++ (answer c reply.result).2.map .event }

theorem probeAll_cons (target : List Char) (c : Capability) (rest : List Capability) (d : Desk σ) :
    (probeAll E target (c :: rest)).run d =
      ((probeAll E target rest).run (asked E target c d)).map
        (fun names => if affirms (E.evaluate (script target c.members) d.state) then c.name :: names else names) id := by
  rw [← answer_affirms c]
  rfl

theorem probeAll_names (target : List Char) (cs : List Capability) (d : Desk σ) :
    ((probeAll E target cs).run d).1 = affirmed cs (E.replies (cs.map fun c => script target c.members) d.state) := by
  induction cs generalizing d with
  | nil => rfl
  | cons c rest ih =>
    rw [probeAll_cons, Prod.map_fst, List.map_cons, Engine.replies, affirmed_cons, ih]
    rfl

/-- A reference that cannot be used supports nothing, and nothing is sent. -/
theorem supported_refused {registry : Registry} {r : Reference} {d : Desk σ} {e : BridgeError}
    (hcheck : d.session.check r = .error e) :
    ((supported E registry r).run d).1 = [] ∧ ((supported E registry r).run d).2.requests = d.requests := by
  rw [supported_run, hcheck]
  exact ⟨rfl, Desk.requests_event d.session d.state d.trail _⟩

/-- A usable reference is asked about each capability once, in order, and supports those whose probe is answered by
`true`. -/
theorem supported_asked {registry : Registry} {r : Reference} {d : Desk σ} (hcheck : d.session.check r = .ok ()) :
    let probe (c : Capability) := script (Expression.reference d.session.config.tableName r.handle) c.members
    ((supported E registry r).run d).1 =
        affirmed registry.capabilities (E.replies (registry.capabilities.map probe) d.state) ∧
      ((supported E registry r).run d).2.requests =
        d.requests ++ registry.capabilities.map fun c => .evaluate (probe c) := by
  rw [supported_run, hcheck]
  exact ⟨probeAll_names _ _ d, probeAll_requests _ _ d⟩

section Embedded

open Embedded Script

variable {h : Heap} {cs : List Capability} {target : List Char} {yes : Capability → Bool}

/-- Probes that leave the heap alone are answered each as if it were the only one. -/
theorem probeAll_undisturbed (hprobes : ∀ c ∈ cs, ∃ reply, engine.evaluate (script target c.members) h = reply ∧
      affirms reply = yes c ∧ reply.state = h) {d : Desk Heap}
    (hd : d.state = h) : ((probeAll engine target cs).run d).1 = (cs.filter yes).map Capability.name ∧
      ((probeAll engine target cs).run d).2.state = h := by
  induction cs generalizing d with
  | nil => exact ⟨rfl, hd⟩
  | cons c rest ih =>
    obtain ⟨reply, hreply, hanswer, hstate⟩ := hprobes c List.mem_cons_self
    rw [← hd] at hreply
    have hasked : (asked engine target c d).state = h := by
      rw [← hstate, ← hreply]
      rfl
    obtain ⟨hnames, hrest⟩ := ih (fun e he => hprobes e (List.mem_cons_of_mem c he)) hasked
    rw [probeAll_cons, Prod.map_fst, Prod.map_snd, hreply, hanswer, hnames, List.filter_cons]
    refine ⟨?_, hrest⟩
    cases yes c <;> rfl

variable {registry : Registry} {r : Reference} {d : Desk Heap} {table : Address}

/-- An object supports the capabilities all members of which it has, and asking it changes nothing. -/
theorem supported_members (hcheck : d.session.check r = .ok ()) (hsound : d.session.config.Sound)
    (hvariable : IsVariable d.session.config.tableName) (hapart : d.session.config.tableName ≠ "o")
    (htable : d.state.Holds Heap.global (.ofText d.session.config.tableName) (.object table))
    (hundefined : d.state.Holds Heap.global (.ofText "undefined") .undefined)
    (hmembers : ∀ c ∈ registry.capabilities, ∀ m ∈ c.members, NullFree m.toList) :
    ((supported engine registry r).run d).1 =
        (registry.capabilities.filter fun c =>
          d.state.hasMembers (d.state.get table (.ofNat r.handle.index)) c.members).map Capability.name ∧
      ((supported engine registry r).run d).2.state = d.state := by
  rw [supported_run, hcheck]
  exact probeAll_undisturbed (fun c hc => ⟨_,
    evaluate_probe hsound.table hvariable hapart htable hundefined r.handle (hmembers c hc), rfl, rfl⟩) rfl

/-- The variable of a probe hides a table of its name, and every probe fails. -/
theorem supported_hidden (hcheck : d.session.check r = .ok ()) (hname : d.session.config.tableName = "o")
    (hmembers : ∀ c ∈ registry.capabilities, ∀ m ∈ c.members, NullFree m.toList) :
    ((supported engine registry r).run d).1 = [] := by
  rw [supported_run, hcheck, hname]
  have hprobes : ∀ c ∈ registry.capabilities, ∃ reply,
      engine.evaluate (script (Expression.reference "o" r.handle) c.members) d.state = reply ∧
        affirms reply = false ∧ reply.state = d.state := fun c hc => by
    obtain ⟨message, hreply⟩ := evaluate_probe_hidden d.state r.handle (hmembers c hc)
    exact ⟨_, hreply, rfl, rfl⟩
  simpa using (probeAll_undisturbed hprobes rfl).1

end Embedded
end Probe
end ScriptBridge
