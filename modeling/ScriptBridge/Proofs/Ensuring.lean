import ScriptBridge.Proofs.InstallScripts

/-! Making sure that there is a table. The presence probe asks for a table and a converter, the guard of the installing
script for the table alone. They agree but where there is a table and no converter: there nothing is installed, and
the probe goes on saying so. -/
namespace ScriptBridge

open Script

variable {c : Config} {h h' : Heap}

/-- An array is under the name of the table. -/
def Config.hasTable (c : Config) (h : Heap) : Bool := h.isArrayValue (h.get Heap.global (.ofText c.tableName))

/-- A function is under the name of the converter. -/
def Config.hasConverter (c : Config) (h : Heap) : Bool := h.isCallable (h.get Heap.global (.ofText c.converterName))

namespace Script

variable {s : Scope} {i : Installation}

theorem Run.key_text (invoke : Caller) (x : String) : key invoke (.text x) = pure (.ofText x) := rfl

namespace Expr

/-- The value of a global name that may have none. -/
theorem outcome_globalExpr (hs : s.names = []) (hfoundations : Foundations h) (x : String) :
    outcome ((globalExpr x).evaluate s) h = (.ok (h.get Heap.global (.ofText x)), h) := by
  have hglobal := outcome_name (Scope.find?_of_names_nil hs _) (by decide) hfoundations.globalThis
  rw [globalExpr, evaluate, outcome_bind_ok hglobal, outcome_bind_ok (outcome_constant s _ h), Run.key_text, pure_bind, Run.outcome_read_object]

theorem outcome_isArrayExpr (hs : s.names = []) (hfoundations : Foundations h) (x : String) :
    outcome ((isArrayExpr x).evaluate s) h =
      (.ok (.bool (h.isArrayValue (h.get Heap.global (.ofText x)))), h) := by
  obtain ⟨f, hf, -, g, hg, hcode⟩ := hfoundations.library.array
  have harguments : outcome (evaluateAll s [] [globalExpr x]) h = (.ok [h.get Heap.global (.ofText x)], h) := by
    rw [evaluateAll, outcome_bind_ok (outcome_globalExpr hs hfoundations x)]
    rfl
  have hread : outcome (Run.read (.object f) (.ofText "isArray")) h = (.ok (.object g), h) := by
    rw [Run.outcome_read_object, hg.get_eq]
  obtain ⟨inner, -, hcall⟩ := Run.within_invoke.code hcode (.object f) [h.get Heap.global (.ofText x)]
  have harray := outcome_name (Scope.find?_of_names_nil hs _) (by decide) hf
  rw [isArrayExpr, evaluate, outcome_bind_ok harray, outcome_bind_ok hread, outcome_bind_ok harguments, hcall]
  cases h.get Heap.global (.ofText x) <;> rfl

private theorem typeWord_eq_function (h : Heap) (v : Value) :
    (Value.text (h.typeWord v)).same (.text "function") = h.isCallable v := by
  cases v with
  | object a =>
    rw [Heap.typeWord, Heap.isCallable, Heap.codeOf?]
    cases (h.code? a).isSome <;> decide
  | _ => rfl

/-- The presence probe asks for both. -/
theorem outcome_presenceExpr (hs : s.names = []) (hfoundations : Foundations h) (c : Config) :
    outcome ((presenceExpr c).evaluate s) h = (.ok (.bool (c.hasTable h && c.hasConverter h)), h) := by
  have htype : outcome ((typeOf (globalExpr c.converterName)).evaluate s) h =
      (.ok (.text (h.typeWord (h.get Heap.global (.ofText c.converterName)))), h) := by
    rw [evaluate, outcome_bind_ok (outcome_globalExpr hs hfoundations _)]
    · rfl
    · exact nofun
  have hfunction : outcome ((equals true (typeOf (globalExpr c.converterName)) (constant (.text "function"))).evaluate s) h =
      (.ok (.bool (c.hasConverter h)), h) := by
    rw [evaluate, outcome_bind_ok htype, outcome_bind_ok (outcome_constant s _ h), typeWord_eq_function, beq_true]
    rfl
  rw [presenceExpr, evaluate, outcome_bind_ok (outcome_isArrayExpr hs hfoundations _), ← Config.hasTable]
  cases c.hasTable h with
  | true => exact hfunction
  | false => rfl

end Expr

/-- The guarded installation runs where there is no table. -/
theorem Program.outcome_installUnless (hfoundations : Foundations h) (c : Config) (i : Installation) :
    outcome ((Program.installUnless (isArrayExpr c.tableName) i).run .top) h =
      if c.hasTable h then (.ok .undefined, h) else outcome i.run h := by
  rw [run, outcome_bind_ok (Expr.outcome_isArrayExpr rfl hfoundations c.tableName), ← Config.hasTable]
  cases c.hasTable h <;> rfl

/-- What a new table is found by. -/
theorem Installation.Placed.present {m : Memory} {e : Expr} {root : Value}
    (hplaced : Placed (.of c e) m root h h') : c.hasTable h' = true ∧ c.hasConverter h' = true := by
  obtain ⟨t, ht, -, harray, -⟩ := hplaced.table
  obtain ⟨f, hf, hcode⟩ := hplaced.converter
  have htable : h'.get Heap.global (.ofText c.tableName) = .object t := by
    rw [← ht]
    exact hplaced.named.get_eq
  have hconverter : h'.get Heap.global (.ofText c.converterName) = .object f := hf.get_eq
  refine ⟨?_, ?_⟩
  · rw [Config.hasTable, htable]
    exact harray.isArray
  · rw [Config.hasConverter, hconverter, Heap.isCallable, Heap.codeOf?, hcode]
    rfl

end Script

/-- A valid configuration, of which no name is one that the scripts of a bridge use or holds the name of a slot. -/
structure Config.Clear (c : Config) : Prop where
  valid : c.validate = .ok ()
  unambiguous : Bootstrap.Unambiguous c
  tag : c.tagProperty ∉ spoken
  table : c.tableName ∉ spoken
  converter : c.converterName ∉ spoken

namespace Config.Clear

variable {e : Expr}

theorem sound (hclear : c.Clear) : c.Sound := sound_of_validate hclear.valid

theorem named (hclear : c.Clear) (e : Expr) : (Installation.of c e).Named :=
  ⟨hclear.sound.tag, hclear.tag, hclear.table, hclear.converter, hclear.sound.apart⟩

theorem isPath (hclear : c.Clear) (hroot : rootExpr c = .ok e) : e.IsPath :=
  Parser.isPath_of_expression? hclear.sound.root hroot

end Config.Clear

/-- A configuration with a tag that is the name of nothing else. -/
structure Config.Distinct (c : Config) : Prop extends c.Clear where
  unused : (Key.ofText c.tagProperty).Unused
  tagTable : c.tagProperty ≠ c.tableName
  tagConverter : c.tagProperty ≠ c.converterName

theorem Config.distinct_default : ({} : Config).Distinct where
  valid := rfl
  unambiguous := by decide +kernel
  tag := by decide
  table := by decide
  converter := by decide
  unused := ⟨⟨_, (Key.ofText_identifier (by decide)).1⟩, by decide, by decide⟩
  tagTable := by decide
  tagConverter := by decide

private def rootName? : Expr → Option String
  | .name x => some x
  | _ => none

/-- The root of the configuration that nothing has changed. -/
theorem rootExpr_default : rootExpr {} = .ok (.name "globalThis") := by
  have hname : (rootExpr {}).toOption.bind rootName? = some "globalThis" := by decide +kernel
  cases hroot : rootExpr {} with
  | error f =>
    rw [hroot] at hname
    cases hname
  | ok e =>
    rw [hroot] at hname
    cases e with
    | name x => exact congrArg (fun x => Except.ok (Expr.name x)) (Option.some.inj hname)
    | _ => cases hname

namespace Embedded

variable {a : Run Value} {e : Expr}

private theorem reply_result_ok (hok : (reply h a fun _ _ => (.ok () : Except EngineError Unit)).result = .ok ()) :
    ∃ v, outcome a h = (.ok v, (reply h a fun _ _ => (.ok () : Except EngineError Unit)).state) := by
  rcases hrun : outcome a h with ⟨t | v, h'⟩
  · have hrun' : a.run h = (.error t, h') := hrun
    rw [reply, hrun'] at hok
    cases hok
  · exact ⟨v, by rw [reply_of_ok hrun]⟩

private theorem installed_ok {i : Expr → Program} {root : Except SyntaxFault Expr}
    (hok : (installed i root h).result = .ok ()) :
    ∃ e v, root = .ok e ∧ outcome ((i e).run .top) h = (.ok v, (installed i root h).state) := by
  cases root with
  | error f => cases hok
  | ok e =>
    obtain ⟨v, hrun⟩ := reply_result_ok hok
    exact ⟨e, v, rfl, hrun⟩

/-- The installing script does what the installation does that it describes. -/
theorem execute_install_of_run {v : Value} (hclear : c.Clear) (hroot : rootExpr c = .ok e)
    (hrun : outcome (Installation.of c e).run h = (.ok v, h')) : engine.execute (Bootstrap.install c) h = ⟨.ok (), h', []⟩ := by
  rw [execute_install hclear.sound hclear.unambiguous, hroot]
  exact reply_of_ok hrun _

/-- What the installing script has done when it succeeds. -/
theorem execute_install_ok (hclear : c.Clear) (hfoundations : Foundations h)
    (hok : (engine.execute (Bootstrap.install c) h).result = .ok ()) : ∃ e, rootExpr c = .ok e ∧
      ∃ m root, Installation.Finished (.of c e) m root h (engine.execute (Bootstrap.install c) h).state := by
  rw [execute_install hclear.sound hclear.unambiguous] at hok ⊢
  obtain ⟨e, v, hroot, hrun⟩ := installed_ok hok
  exact ⟨e, hroot, Installation.finished_of_run (hclear.isPath hroot) (hclear.named e) hfoundations hrun⟩

/-- What the guarded script has done when it succeeds. -/
theorem execute_guarded_ok (hclear : c.Clear) (hfoundations : Foundations h)
    (hok : (engine.execute (Bootstrap.guarded c) h).result = .ok ()) : ∃ e, rootExpr c = .ok e ∧
      if c.hasTable h then (engine.execute (Bootstrap.guarded c) h).state = h
      else ∃ m root, Installation.Finished (.of c e) m root h (engine.execute (Bootstrap.guarded c) h).state := by
  rw [execute_guarded hclear.sound hclear.unambiguous] at hok ⊢
  obtain ⟨e, v, hroot, hrun⟩ := installed_ok hok
  refine ⟨e, hroot, ?_⟩
  rw [Program.outcome_installUnless hfoundations] at hrun
  cases htable : c.hasTable h with
  | true =>
    rw [htable, if_pos rfl] at hrun
    rw [if_pos rfl]
    exact (Prod.mk.inj hrun).2.symm
  | false =>
    rw [htable, if_neg Bool.false_ne_true] at hrun
    exact Installation.finished_of_run (hclear.isPath hroot) (hclear.named e) hfoundations hrun

/-- Where there is a table, the guarded script does nothing. -/
theorem execute_guarded_table (hclear : c.Clear) (hfoundations : Foundations h) (hroot : rootExpr c = .ok e)
    (htable : c.hasTable h = true) : engine.execute (Bootstrap.guarded c) h = ⟨.ok (), h, []⟩ := by
  rw [execute_guarded hclear.sound hclear.unambiguous, hroot]
  refine reply_of_ok (x := .undefined) ?_ _
  rw [Program.outcome_installUnless hfoundations, htable, if_pos rfl]

end Embedded

namespace Session

open Embedded (engine)

variable {d d' : Desk Heap} {done : Bool}

/-- The presence probe changes nothing. -/
theorem outcome_isInstalled (hsound : d.session.config.Sound) (hfoundations : Foundations d.state) :
    ∃ d', d'.session = d.session ∧ d'.state = d.state ∧ outcome (isInstalled engine) d =
      (.ok (d.session.config.hasTable d.state && d.session.config.hasConverter d.state), d') := by
  have hprobe : engine.evaluate (Bootstrap.presence d.session.config) d.state =
      ⟨.ok (.bool (d.session.config.hasTable d.state && d.session.config.hasConverter d.state)), d.state, []⟩ := by
    rw [Embedded.evaluate_presence hsound,
      Embedded.reply_of_ok (Expr.outcome_presenceExpr rfl hfoundations d.session.config), Embedded.toWire, Embedded.wire]
    rfl
  have hevaluate := Work.outcome_evaluate engine (Bootstrap.presence d.session.config) d
  rw [hprobe] at hevaluate
  let asked : Mark := .request (.evaluate (Bootstrap.presence d.session.config))
  refine ⟨{ d with trail := d.trail ++ [asked] }, rfl, rfl, ?_⟩
  rw [isInstalled, outcome_bind_ok (Work.outcome_session d), outcome_bind_ok hevaluate]
  rfl

/-- Where the probe finds what it asks for, a session without a table takes the table over. -/
theorem outcome_ensureInstalled_present (hsound : d.session.config.Sound) (hfoundations : Foundations d.state)
    (hpresent : (d.session.config.hasTable d.state && d.session.config.hasConverter d.state) = true) :
    ∃ d', d'.session = (if d.session.generation = 0 then d.session.next else d.session) ∧ d'.state = d.state ∧
      outcome (ensureInstalled engine) d = (.ok false, d') := by
  obtain ⟨d₁, hsession, hstate, hprobe⟩ := outcome_isInstalled hsound hfoundations
  rw [hpresent] at hprobe
  rw [ensureInstalled, outcome_bind_ok hprobe, if_pos rfl, outcome_bind_ok (Work.outcome_session d₁), hsession]
  by_cases hgeneration : d.session.generation = 0
  · rw [if_pos hgeneration, if_pos hgeneration, ← hsession, ← hstate]
    let told : Mark := .event (.adopted d₁.session.config.tableName (d₁.session.generation + 1))
    exact ⟨⟨d₁.session.next, d₁.state, d₁.trail ++ [told]⟩, rfl, rfl, rfl⟩
  · rw [if_neg hgeneration, if_neg hgeneration]
    exact ⟨d₁, hsession, hstate, rfl⟩

/-- The guarded script fails, or the session moves on. -/
private theorem outcome_guarded (c : Config) (d : Desk Heap) :
    let reply := engine.execute (Bootstrap.guarded c) d.state
    let run : Work Heap Bool := do
      Work.execute engine (Bootstrap.guarded c)
      let _ ← announceInstalled
      return true
    (∃ e d', d'.session = d.session ∧ d'.state = reply.state ∧ outcome run d = (.error e, d')) ∧ reply.result ≠ .ok () ∨
      ∃ d', d'.session = d.session.next ∧ d'.state = reply.state ∧ outcome run d = (.ok true, d') ∧ reply.result = .ok () := by
  intro reply run
  have hexecute := Work.outcome_execute engine (Bootstrap.guarded c) d
  cases hresult : reply.result with
  | error e =>
    rw [hresult] at hexecute
    exact .inl ⟨⟨_, (Work.answered (.execute (Bootstrap.guarded c)) reply d).2, rfl, rfl, outcome_bind_error hexecute⟩, nofun⟩
  | ok _ =>
    rw [hresult] at hexecute
    right
    let d₁ := (Work.answered (.execute (Bootstrap.guarded c)) reply d).2
    exact ⟨(outcome announceInstalled d₁).2, rfl, rfl, outcome_bind_ok hexecute, rfl⟩

/-- Where it does not, the guarded script runs. -/
theorem outcome_ensureInstalled_absent (hsound : d.session.config.Sound) (hfoundations : Foundations d.state)
    (habsent : (d.session.config.hasTable d.state && d.session.config.hasConverter d.state) = false) :
    let reply := engine.execute (Bootstrap.guarded d.session.config) d.state
    (∃ e d', d'.session = d.session ∧ d'.state = reply.state ∧ outcome (ensureInstalled engine) d = (.error e, d')) ∧
        reply.result ≠ .ok () ∨
      ∃ d', d'.session = d.session.next ∧ d'.state = reply.state ∧
        outcome (ensureInstalled engine) d = (.ok true, d') ∧ reply.result = .ok () := by
  obtain ⟨d₁, hsession, hstate, hprobe⟩ := outcome_isInstalled hsound hfoundations
  rw [habsent] at hprobe
  rw [ensureInstalled, outcome_bind_ok hprobe, if_neg Bool.false_ne_true, outcome_bind_ok (Work.outcome_session d₁),
    ← hsession, ← hstate]
  by_cases hgeneration : d₁.session.generation = 0
  · rw [if_neg (not_not_intro hgeneration)]
    exact outcome_guarded d₁.session.config d₁
  · rw [if_pos hgeneration, outcome_bind_ok (Work.outcome_tell _ d₁)]
    let told : Mark := .event (.vanished d₁.session.config.tableName d₁.session.generation)
    exact outcome_guarded d₁.session.config { d₁ with trail := d₁.trail ++ [told] }

/-- A session with a table is satisfied with what the probe finds. -/
private theorem outcome_ensureInstalled_satisfied (hsound : d.session.config.Sound) (hfoundations : Foundations d.state)
    (hpresent : (d.session.config.hasTable d.state && d.session.config.hasConverter d.state) = true)
    (hgeneration : d.session.generation ≠ 0) :
    (∃ d₁, d₁.session = d.session ∧ d₁.state = d.state ∧ outcome (isInstalled engine) d = (.ok true, d₁)) ∧
    ∃ d₂, d₂.session = d.session ∧ d₂.state = d.state ∧ outcome (ensureInstalled engine) d = (.ok false, d₂) := by
  have hprobe := outcome_isInstalled hsound hfoundations
  have hensure := outcome_ensureInstalled_present hsound hfoundations hpresent
  rw [hpresent] at hprobe
  rw [if_neg hgeneration] at hensure
  exact ⟨hprobe, hensure⟩

/-- What making sure of a table establishes. A table without a converter is left as it is, though it is said that one
was installed; in every other case that does not fail there are a table and a converter, which the probe finds, and
which making sure again leaves as they are. -/
theorem ensureInstalled_establishes (hclear : d.session.config.Clear) (hfoundations : Foundations d.state)
    (hrun : outcome (ensureInstalled engine) d = (.ok done, d')) :
    let c := d.session.config
    let half := c.hasTable d.state && !c.hasConverter d.state
    done = !(c.hasTable d.state && c.hasConverter d.state) ∧
    (if c.hasTable d.state then d'.state = d.state
      else ∃ e m root, rootExpr c = .ok e ∧ Installation.Placed (.of c e) m root d.state d'.state) ∧
    (∃ d₁, d₁.session = d'.session ∧ d₁.state = d'.state ∧ outcome (isInstalled engine) d' = (.ok !half, d₁)) ∧
    ∃ d₂, d₂.session = (if half then d'.session.next else d'.session) ∧ d₂.state = d'.state ∧
      outcome (ensureInstalled engine) d' = (.ok half, d₂) := by
  intro c half
  have hsound := hclear.sound
  cases hpresent : c.hasTable d.state && c.hasConverter d.state with
  | true =>
    obtain ⟨d₁, hsession, hstate, hensure⟩ := outcome_ensureInstalled_present hsound hfoundations hpresent
    obtain ⟨rfl, rfl⟩ : false = done ∧ d₁ = d' := by simpa [hensure] using hrun
    obtain ⟨htable, hconverter⟩ := Bool.and_eq_true_iff.1 hpresent
    have hconfig : d₁.session.config = c := by
      rw [hsession]
      split <;> rfl
    have hgeneration : d₁.session.generation ≠ 0 := by
      rw [hsession]
      split
      · exact Nat.succ_ne_zero _
      · assumption
    have hhalf : half = false := by simp [half, htable, hconverter]
    rw [htable, if_pos rfl, hhalf]
    refine ⟨rfl, hstate, ?_⟩
    exact outcome_ensureInstalled_satisfied (hconfig ▸ hsound) (hstate ▸ hfoundations) (by rwa [hconfig, hstate]) hgeneration
  | false =>
    rcases outcome_ensureInstalled_absent hsound hfoundations hpresent with
      ⟨⟨e, d₁, -, -, hensure⟩, -⟩ | ⟨d₁, hsession, hstate, hensure, hok⟩
    · rw [hensure] at hrun
      cases hrun
    obtain ⟨rfl, rfl⟩ : true = done ∧ d₁ = d' := by simpa [hensure] using hrun
    have hconfig : d₁.session.config = c := by rw [hsession]; rfl
    obtain ⟨e, hroot, hguarded⟩ := Embedded.execute_guarded_ok hclear hfoundations hok
    rw [← hstate] at hguarded
    cases htable : c.hasTable d.state with
    | true =>
      -- the guard finds the table, the probe misses the converter
      rw [htable, if_pos rfl] at hguarded
      have hhalf : half = true := by simpa [half, htable] using hpresent
      have hprobe := outcome_isInstalled (d := d₁) (hconfig ▸ hsound) (hguarded ▸ hfoundations)
      rw [hconfig, hguarded, hpresent] at hprobe
      rw [if_pos rfl, hhalf]
      have hagain := outcome_ensureInstalled_absent (d := d₁) (hconfig ▸ hsound) (hguarded ▸ hfoundations)
        (by rw [hconfig, hguarded, hpresent])
      rw [hconfig, hguarded, Embedded.execute_guarded_table hclear hfoundations hroot htable] at hagain
      dsimp only at hagain
      refine ⟨rfl, hguarded, hguarded ▸ hprobe, ?_⟩
      rcases hagain with ⟨-, hfail⟩ | ⟨d₂, hsession₂, hstate₂, hensure₂, -⟩
      · exact absurd rfl hfail
      · exact ⟨d₂, hsession₂, hstate₂.trans hguarded.symm, hensure₂⟩
    | false =>
      rw [htable, if_neg Bool.false_ne_true] at hguarded
      obtain ⟨m, root, hfinished⟩ := hguarded
      have hplaced := hfinished.placed (hclear.named e) hfoundations
      have hhalf : half = false := by simp [half, htable]
      rw [if_neg Bool.false_ne_true, hhalf]
      refine ⟨rfl, ⟨e, m, root, hroot, hplaced⟩, ?_⟩
      refine outcome_ensureInstalled_satisfied (hconfig ▸ hsound) hplaced.foundations ?_ ?_
      · rw [hconfig, hplaced.present.1, hplaced.present.2]
        rfl
      · rw [hsession]
        exact Nat.succ_ne_zero _

end Session
end ScriptBridge
