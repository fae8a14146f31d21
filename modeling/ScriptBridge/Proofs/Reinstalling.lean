import ScriptBridge.Proofs.Ensuring
import ScriptBridge.Proofs.Gating

/-! Installations over a table that is there. One that fails leaves the names of the table and of the converter as they
were, but where the converter's name is refused after the table has got its own: then the references of the session go on
being let through, to a table that is new. And a session counts its own installations alone, so that its references are
let through as before whatever other sessions install over the same engine. -/
namespace ScriptBridge.Script.Installation

open Realm (addProperty)

variable {h h' h₁ : Heap} {i : Installation} {m : Memory} {root : Value} {f : Address} {x : String}

/-- The names stand for what they stood for, and no array has got other elements. -/
structure Spared (x y : String) (h h' : Heap) : Prop where
  table : h'.own? Heap.global (.ofText x) = h.own? Heap.global (.ofText x)
  converter : h'.own? Heap.global (.ofText y) = h.own? Heap.global (.ofText y)
  elements : ∀ a < h.objects.size, (h'.object a).elements = (h.object a).elements

/-- A new table with the root in its only slot is in place beside the converter that was there, whose name takes no
other value. -/
structure Split (x y : String) (h h' : Heap) : Prop where
  table : ∃ t root, h'.Holds Heap.global (.ofText x) (.object t) ∧ h.objects.size ≤ t ∧ ArrayOf h' t [root]
  converter : h'.own? Heap.global (.ofText y) = h.own? Heap.global (.ofText y)
  refused : ¬Run.Takes h y

/-- What the global object has of its own stays when objects are added. -/
private theorem own?_global_of_extended (hfoundations : Foundations h) (hext : h.Extended h') (k : Key) :
    h'.own? Heap.global k = h.own? Heap.global k := by
  have hmade : Heap.global < h.objects.size := Heap.lt_size_of_holds hfoundations.globalThis
  have hobject := hext.grown.object _ hmade
  rw [Heap.own?_ordinary (by rw [hobject, hfoundations.global]), Heap.own?_ordinary hfoundations.global, hobject]

/-- Making a table and remembering its root gives the global object no other name but the tag. -/
private theorem Built.own?_global (hfoundations : Foundations h) (hbuilt : Built i m root f h h')
    (hmarks : Marks m.tableless h' h₁) (hx : isIdentifier x.toList = true) (hspoken : x ∉ spoken) (htag : i.tag ≠ x) :
    h₁.own? Heap.global (.ofText x) = h.own? Heap.global (.ofText x) := by
  obtain ⟨hname, hoverflow⟩ := Key.ofText_identifier hx
  have hlength : Key.ofText x ≠ .length := by
    rw [show Key.length = .ofText "length" from by decide]
    exact Key.ofText_ne fun heq => hspoken (heq ▸ .head _)
  have hsteady : (Key.ofText x).Steady (.ofText m.tableless.tag) :=
    ⟨⟨_, hname⟩, Key.ofText_ne (hbuilt.tag ▸ htag.symm), hlength, hoverflow⟩
  rw [hmarks.own? hsteady, own?_global_of_extended hfoundations hbuilt.extended]

/-- How an installation ends. It gives both names or none, but where the converter's name takes no other value. -/
theorem ends (hroot : i.root.IsPath) (hnamed : i.Named) (hfoundations : Foundations h)
    (htable : isIdentifier i.table.toList = true) (hconverter : isIdentifier i.converter.toList = true)
    (htagTable : i.tag ≠ i.table) (htagConverter : i.tag ≠ i.converter) :
    (∃ h' m root, outcome i.run h = (.ok .undefined, h') ∧ Placed i m root h h') ∨
      ∃ e h', outcome i.run h = (.error e, h') ∧ (Spared i.table i.converter h h' ∨ Split i.table i.converter h h') := by
  rcases outcome_run hroot hfoundations with ⟨e, h', herror, hext⟩ | ⟨m, root, f, h₀, hbuilt, hfinish⟩
  · have hown := own?_global_of_extended hfoundations hext
    exact .inr ⟨e, h', herror, .inl ⟨hown _, hown _, fun a ha => by rw [hext.grown.object a ha]⟩⟩
  obtain ⟨h₁, hmarks, hentered, hremembered, hrun⟩ := hbuilt.outcome_finish hnamed hfoundations
  rw [hfinish]
  have htable₁ := hbuilt.own?_global hfoundations hmarks htable hnamed.table htagTable
  have hconverter₁ := hbuilt.own?_global hfoundations hmarks hconverter hnamed.converter htagConverter
  rcases hrun with ⟨e, herror⟩ | ⟨p, hp, ⟨hrefused, e, herror⟩ | ⟨q, hq, hdone⟩⟩
  · refine .inr ⟨e, h₁, herror, .inl ⟨htable₁, hconverter₁, fun a ha => ?_⟩⟩
    rw [(hmarks.others a nofun).1, hbuilt.extended.grown.object a ha]
  · -- the table has its name, and the converter's is refused
    have hconverter₂ : (addProperty h₁ Heap.global i.table p).own? Heap.global (.ofText i.converter) =
        h.own? Heap.global (.ofText i.converter) := by
      rw [Realm.own?_addProperty_of_ne h₁ _ p (Key.ofText_ne hnamed.apart.symm), hconverter₁]
    refine .inr ⟨e, _, herror, .inr ⟨?_, hconverter₂, fun htakes => hrefused ?_⟩⟩
    · obtain ⟨t, ht, hfresh, -, harray, -⟩ := hbuilt.table_marks hmarks
      have hserved := (hbuilt.served hfoundations).marks hmarks (hbuilt.clearTag hnamed)
      have hmade : Heap.global < h₁.objects.size := Heap.lt_size_of_holds hserved.foundations.globalThis
      have hne : t ≠ Heap.global := by
        rintro rfl
        have hkind := harray.kind
        rw [hserved.foundations.global] at hkind
        cases hkind
      refine ⟨t, root, ⟨p, Heap.find?_of_own? ?_, hp.value_eq.trans ht⟩, hfresh,
        harray.of_object_eq (Realm.object_addProperty_of_ne _ _ _ hne)⟩
      exact Realm.own?_addProperty_self hmade hserved.foundations.global _ _
    · obtain ⟨q, hq, hwritable⟩ := htakes
      exact ⟨q, hconverter₂.trans hq, hwritable⟩
  · exact .inl ⟨_, m, root, hdone, (Finished.intro hbuilt hmarks hentered hremembered hp hq).placed hnamed hfoundations⟩

end ScriptBridge.Script.Installation

namespace ScriptBridge

open Script

variable {c : Config} {h : Heap}

namespace Embedded

/-- How the installing script ends. -/
theorem execute_install_ends (hclear : c.Clear) (htable : c.tagProperty ≠ c.tableName)
    (hconverter : c.tagProperty ≠ c.converterName) (hfoundations : Foundations h) :
    let reply := engine.execute (Bootstrap.install c) h
    (reply.result = .ok () ∧ ∃ e m root, rootExpr c = .ok e ∧ Installation.Placed (.of c e) m root h reply.state) ∨
      (∃ f, reply.result = .error f) ∧ (Installation.Spared c.tableName c.converterName h reply.state ∨
        Installation.Split c.tableName c.converterName h reply.state) := by
  intro reply
  have hreply : reply = installed (fun root => .install (.of c root)) (rootExpr c) h :=
    execute_install hclear.sound hclear.unambiguous h
  cases hroot : rootExpr c with
  | error f =>
    rw [hreply, hroot]
    exact .inr ⟨⟨_, rfl⟩, .inl ⟨rfl, rfl, fun _ _ => rfl⟩⟩
  | ok e =>
    rcases Installation.ends (hclear.isPath hroot) (hclear.named e) hfoundations hclear.sound.table
      hclear.sound.converter htable hconverter with ⟨h', m, root, hrun, hplaced⟩ | ⟨t, h', hrun, hends⟩
    · rw [show reply = ⟨.ok (), h', []⟩ from execute_install_of_run hclear hroot hrun]
      exact .inl ⟨rfl, e, m, root, rfl, hplaced⟩
    · rw [hroot] at hreply
      rw [show reply = raised h' (thrownMessage h' t) from hreply.trans (reply_of_error hrun _)]
      exact .inr ⟨⟨_, rfl⟩, hends⟩

end Embedded

namespace Session

open Embedded (engine)

/-- An installation raises the generation and puts a new table and its converter in place; or it fails, and both are what
they were, but where the converter's name takes no other value. There the new table stands beside the old converter, and
the references to the old table are those that the session goes on accepting. -/
theorem install_ends {d : Desk Heap} (hclear : d.session.config.Clear)
    (htable : d.session.config.tagProperty ≠ d.session.config.tableName)
    (hconverter : d.session.config.tagProperty ≠ d.session.config.converterName) (hfoundations : Foundations d.state) :
    let c := d.session.config
    (∃ d', outcome (install engine) d = (.ok (d.session.generation + 1), d') ∧ d'.session = d.session.next ∧
        ∃ e m root, rootExpr c = .ok e ∧ Installation.Placed (.of c e) m root d.state d'.state) ∨
      ∃ e d', outcome (install engine) d = (.error e, d') ∧ d'.session = d.session ∧
        (Installation.Spared c.tableName c.converterName d.state d'.state ∨
          Installation.Split c.tableName c.converterName d.state d'.state) := by
  intro c
  have hexecute := Work.outcome_execute engine (Bootstrap.install c) d
  have hreply := Embedded.execute_install_ends hclear htable hconverter hfoundations
  rw [install, outcome_bind_ok (Work.outcome_session d)]
  -- from here on it does not matter what the script is
  generalize engine.execute (Bootstrap.install c) d.state = reply at hexecute hreply
  rcases hreply with ⟨hok, hplaced⟩ | ⟨⟨f, herror⟩, hends⟩
  · rw [hok] at hexecute
    let d₁ := (Work.answered (.execute (Bootstrap.install c)) reply d).2
    exact .inl ⟨(outcome announceInstalled d₁).2, outcome_bind_ok hexecute, rfl, hplaced⟩
  · rw [herror] at hexecute
    exact .inr ⟨_, _, outcome_bind_error hexecute, rfl, hends⟩

end Session

namespace World

variable {σ : Type} {E : Engine σ} {w v : World σ} {i : SessionId} {q : Reference} {s : Seat}

/-- Another session acts, over the same engine or over another one. -/
inductive Beside (E : Engine σ) (i : SessionId) (w : World σ) : World σ → Prop
  | act {j : SessionId} {op : Operation} {o : Outcome σ Unit} (hj : j ≠ i)
      (h : w.run E j (fun F => modify (op.perform F)) = some o) : Beside E i w o.world

theorem Beside.seat? (h : Beside E i w v) : v.seat? i = w.seat? i := by
  obtain ⟨hj, h⟩ := h
  obtain ⟨t, b, ht, hb⟩ := exists_of_run h
  rw [run_eq ht hb] at h
  cases h
  simp [seat?_setSession, hj]

theorem Beside.seated (h : Beside E i w v) (hw : w.Seated) : v.Seated := by
  obtain ⟨-, h⟩ := h
  exact (Step.act h).seated hw

/-- Whatever other sessions do, be it the installation of a table under the same name, a session lets through the
references that it let through. -/
theorem letThrough_beside (hw : w.Seated) (hs : w.seat? i = some s) (hid : q.session = s.session.id)
    (hrun : Relation.ReflTransGen (Beside E i) w v) : LetThrough E v i q ↔ LetThrough E w i q := by
  have hlater : v.Seated ∧ v.seat? i = some s := by
    induction hrun with
    | refl => exact ⟨hw, hs⟩
    | tail _ hstep ih => exact ⟨hstep.seated ih.1, hstep.seat?.trans ih.2⟩
  rw [(gate hlater.1 hlater.2 hid).1, (gate hw hs hid).1]

end World
end ScriptBridge
