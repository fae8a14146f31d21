import ScriptBridge.Proofs.CallStatements
import ScriptBridge.Proofs.RegisteredValues
import ScriptBridge.Proofs.StandingTables

/-! Routing of calls. A session installs tables, makes sure of them and evaluates expressions, contexts are reloaded, and
pages do what they like that leaves the table, its names and what arrays inherit alone. Then a reference that is let
through names the slot of the object that it was given for, or there is no table and its calls fail. -/
namespace ScriptBridge

open Script
open Script.Parser (joined)
open Embedded (engine conversion)
open Probe (slotExpr)

variable {c : Config} {h h' : Heap} {m : Memory} {a f : Address} {x : String} {this : Value} {args slots : List Value}
  {q : Handle}

/-- A configuration with names that scripts can use for variables, and that stand for nothing in a new context. -/
structure Config.Suits (c : Config) : Prop extends c.Distinct where
  tableVariable : IsVariable c.tableName
  converterVariable : IsVariable c.converterName
  initial : c.Vacant Heap.initial

theorem Config.suits_default : ({} : Config).Suits where
  toDistinct := Config.distinct_default
  tableVariable := ⟨by decide, by decide⟩
  converterVariable := ⟨by decide, by decide⟩
  initial := by
    have hnames : (Heap.initial.object Heap.global).proto = some Heap.objectProto ∧
        ∀ x ∈ ({} : Config).globals, ∀ a ∈ [Heap.global, Heap.objectProto], Heap.initial.own? a (.ofText x) = none := by
      decide +kernel
    exact ⟨.initial, hnames.1, hnames.2⟩

theorem Config.stands_default :
    ∃ m root, ({} : Config).Stands m [root] (engine.execute (Bootstrap.install {}) Heap.initial).state := by
  have hsuits := suits_default
  obtain ⟨h, hrun⟩ := Installation.outcome_initial
  rw [Embedded.execute_install_of_run hsuits.toClear rootExpr_default hrun]
  rcases Installation.outcome_run_vacant hsuits.toDistinct rootExpr_default hsuits.initial with
    ⟨h', m, root, hrun', hstands⟩ | ⟨t, h', hrun', -⟩
  · obtain ⟨-, rfl⟩ := Prod.mk.inj (hrun.symm.trans hrun')
    exact ⟨m, root, hstands⟩
  · rw [hrun] at hrun'
    cases hrun'

/-- Looking up a name that stands for nothing throws. -/
theorem Script.Scope.outcome_lookup_none {s : Scope} (hs : s.find? x = none) (hx : x ≠ "arguments")
    (hproto : Key.ofText x ≠ .proto) (hnone : h.find? Heap.global (.ofText x) = none) :
    ∃ t, outcome (s.lookup x) h = (.error t, h) := by
  have hhas : h.has Heap.global (.ofText x) = false := by simp [Heap.has, hnone, hproto]
  have hglobal : outcome (Run.global? x) h = (.ok none, h) := by
    rw [Run.global?, outcome_bind_ok (outcome_get h)]
    dsimp only
    rw [hhas]
    rfl
  have hfound : outcome (s.lookup? x) h = (.ok none, h) := by
    rw [lookup?, hs]
    cases s.arguments with
    | none => exact hglobal
    | some args =>
      dsimp only
      rw [if_neg hx, hglobal]
  rw [lookup, outcome_bind_ok hfound]
  exact ⟨_, rfl⟩

/-- The token of an index that a handle has room for. -/
theorem Handle.exists_token {n : Nat} (hn : n < 2 ^ 32) :
    ∃ q : Handle, q.index = n ∧ q.token = String.ofList scheme ++ String.ofList (Text.decimal n) := by
  have hindex : (⟨UInt32.ofNat n⟩ : Handle).index = n := UInt32.toNat_ofNat_of_lt' hn
  exact ⟨_, hindex, by rw [token, numeralText, hindex, String.ofList_append]⟩

namespace Config

/-- Where calls by a handle get. Their scripts find the object in the slot of the table that stands; or there is no table,
and they throw before anything is done. -/
inductive Routes (c : Config) (h : Heap) (q : Handle) (a : Address) : Prop
  | object {m : Memory} {slots : List Value} (stands : c.Stands m slots h) (slot : slots[q.index]? = some (.object a))
      (finds : ∀ s : Scope, s.names = [] → outcome ((slotExpr c.tableName q).evaluate s) h = (.ok (.object a), h))
  | nowhere (vacant : c.Vacant h) (throws : ∀ (s : Scope) (owner : Option Session) (member : String) (args : List Native),
      s.names = [] → ∃ t, outcome ((Native.callExpr c.tableName owner q member args).evaluate s) h = (.error t, h))

theorem Stands.routes (hsuits : c.Suits) (hstands : c.Stands m slots h) (hslot : slots[q.index]? = some (.object a)) :
    c.Routes h q a := by
  refine .object hstands hslot fun s hs => ?_
  obtain ⟨t, ht, -⟩ := hstands.guarded.table
  have hroom : q.index < Key.indexBound := (List.getElem?_eq_some_iff.1 hslot).1.trans hstands.room
  rw [slotExpr, Expr.outcome_slot (hroom.trans (by decide)) (Scope.find?_of_names_nil hs _) hsuits.tableVariable.2
    (ht ▸ hstands.table.holds), hstands.guarded.get_slot ht hroom, hslot]
  rfl

theorem Vacant.routes (hsuits : c.Suits) (hvacant : c.Vacant h) (q : Handle) (a : Address) : c.Routes h q a := by
  refine .nowhere hvacant fun s owner member args hs => ?_
  obtain ⟨t, ht⟩ := Scope.outcome_lookup_none (Scope.find?_of_names_nil hs _) hsuits.tableVariable.2
    (Installation.Named.not_mem hsuits.toClear.table).2 (hvacant.find?_none (.head _))
  have hname : outcome ((Expr.name c.tableName).evaluate s) h = (.error t, h) := by rw [Expr.evaluate, ht]
  have hslot : outcome ((slotExpr c.tableName q).evaluate s) h = (.error t, h) := by
    rw [slotExpr, Expr.evaluate, outcome_bind_error hname]
  rcases Native.call_cases c.tableName owner q member args with ⟨property, -, -, -, -, hexpr⟩ | ⟨-, -, hexpr⟩ <;>
    rw [hexpr] <;> refine ⟨t, ?_⟩
  · rw [Expr.evaluate, outcome_bind_error hslot]
  · rw [Expr.evaluate, outcome_bind_error hslot]

/-- Where there is no table, nothing is converted. -/
theorem Vacant.outcome_call (hsuits : c.Suits) (hvacant : c.Vacant h) (es : List Expr) :
    ∃ t, outcome ((Expr.call (.name c.converterName) es).evaluate .body) h = (.error t, h) := by
  obtain ⟨t, ht⟩ := Scope.outcome_lookup_none (s := .body) rfl hsuits.converterVariable.2
    (Installation.Named.not_mem hsuits.toClear.converter).2 (hvacant.find?_none (.tail _ (.head _)))
  refine ⟨t, ?_⟩
  rw [Expr.evaluate, outcome_bind_error (by rw [Expr.evaluate, ht])]
  · exact nofun
  · exact nofun

/-- A table that stands gives an object the token of a slot that holds it, and stands on. -/
theorem Stands.converts (hdistinct : c.Distinct) (hstands : c.Stands m slots h) (harray : h.isArray a = false)
    (hcode : h.code? f = some (.tool .convert m)) (this : Value) (args : List Value)
    (hroom : c.HasRoom (outcome (Run.invoke (.object f) this (.object a :: args)) h).2) : ∃ (q : Handle) (h' : Heap)
      (slots' : List Value), outcome (Run.invoke (.object f) this (.object a :: args)) h = (.ok (.text q.token), h') ∧
        c.Stands m slots' h' ∧ slots'[q.index]? = some (.object a) := by
  have hstrides := hstands.guarded.strides_object harray hcode this args
  obtain ⟨slots', -, hstands'⟩ := hstands.strides hdistinct hstrides hroom
  obtain ⟨n, h', hrun, -, hslot⟩ := hstands.guarded.token_names_slot harray hcode this args (hroom m hstands'.serves)
  rw [hrun] at hstands'
  rw [hstands'.guarded.held_eq] at hslot
  obtain ⟨q, rfl, htoken⟩ := Handle.exists_token
    (((List.getElem?_eq_some_iff.1 hslot).1.trans hstands'.room).trans (by decide : Key.indexBound < 2 ^ 32))
  refine ⟨q, h', slots', ?_, hstands', hslot⟩
  rw [hrun, htoken, hstands.scheme]

end Config

/-- What pages do that leave the names of a table alone, and the table that stands under them. -/
structure Config.Minds (c : Config) (h h' : Heap) : Prop where
  names : ∀ x ∈ c.globals, ∀ a ∈ [Heap.global, Heap.objectProto], h'.own? a (.ofText x) = h.own? a (.ofText x)
  inherits : (h'.object Heap.global).proto = (h.object Heap.global).proto
  code : ∀ f k, h.code? f = some k → h'.code? f = some k
  secure : h.Secure c.tagProperty → h'.Secure c.tagProperty
  spares : ∀ m, c.Serves m h → m.Spares h h'

theorem Config.Minds.refl (c : Config) (h : Heap) : c.Minds h h where
  names _ _ _ _ := rfl
  inherits := rfl
  code _ _ := id
  secure := id
  spares _ _ := {
    size := le_rfl
    foundations := id
    works := id
    bare := id
    silent := fun _ _ _ => id
    table := fun _ _ => .of_eq rfl
    map := fun _ _ => rfl
    tags := id }

theorem Config.Stands.minds (hstands : c.Stands m slots h) (hminds : c.Minds h h') : c.Stands m slots h' :=
  hstands.spares (hminds.spares m hstands.serves) (fun x hx => hminds.names x hx _ (.head _)) hminds.code

namespace Session

/-- What happens to a session over an engine of its own. The steps of conversions stand by themselves, so that what holds
at any time holds in the middle of a conversion as well. -/
inductive Move : Desk Heap → Desk Heap → Prop
  | installed (d : Desk Heap) : Move d (outcome (install engine) d).2
  | ensured (d : Desk Heap) : Move d (outcome (ensureInstalled engine) d).2
  | reloaded {d d' : Desk Heap} (session : d'.session = d.session) (state : d'.state = (Embedded.reload d.state).state) : Move d d'
  | minded {d d' : Desk Heap} (session : d'.session = d.session) (minds : d.session.config.Minds d.state d'.state) : Move d d'
  | strode {d d' : Desk Heap} {m : Memory} (session : d'.session = d.session) (serves : d.session.config.Serves m d.state)
      (strides : m.Strides d.state d'.state) (room : d.session.config.HasRoom d'.state) : Move d d'

def Moves : Desk Heap → Desk Heap → Prop := Relation.ReflTransGen Move

variable {d d' d₁ d₂ d₃ : Desk Heap}

theorem Move.passes (hsuits : d.session.config.Suits) (hsettled : d.session.config.Settled d.state) (hmove : Move d d') :
    Passes d d' := by
  cases hmove with
  | installed => exact install_passes hsuits.toDistinct hsettled
  | ensured => exact ensureInstalled_passes hsuits.toDistinct hsettled
  | reloaded hsession hstate =>
    have hinitial : (Embedded.reload d.state).state = Heap.initial := by rw [Embedded.reload]
    refine .inl ⟨hsession, .inl ?_⟩
    rw [hstate, hinitial]
    exact hsuits.initial
  | minded hsession hminds =>
    refine .inl ⟨hsession, ?_⟩
    rcases hsettled with hvacant | ⟨m, slots, hstands⟩
    · refine .inl ⟨hminds.secure hvacant.secure, hminds.inherits.trans hvacant.inherits, fun x hx a ha => ?_⟩
      rw [hminds.names x hx a ha]
      exact hvacant.names x hx a ha
    · exact .inr ⟨m, slots, slots, hstands, List.prefix_rfl, hstands.minds hminds⟩
  | strode hsession hserves hstrides hroom =>
    refine .inl ⟨hsession, ?_⟩
    rcases hsettled with hvacant | ⟨m, slots, hstands⟩
    · obtain ⟨f, hf, -⟩ := hserves
      exact absurd hf (hvacant.not_holds (.tail _ (.head _)))
    · obtain rfl := hstands.memory_eq hserves
      obtain ⟨slots', hlonger, hstands'⟩ := hstands.strides hsuits.toDistinct hstrides hroom
      exact .inr ⟨_, slots, slots', hstands, hlonger, hstands'⟩

/-- A session that has moved is in a later generation, or the table that it had has lasted. -/
theorem Moves.passes (hsuits : d.session.config.Suits) (hsettled : d.session.config.Settled d.state) (hmoves : Moves d d') :
    ∃ k, d'.session = { d.session with generation := d.session.generation + k } ∧
      d.session.config.Settled d'.state ∧ (k = 0 → d.session.config.Lasts d.state d'.state) := by
  induction hmoves with
  | refl => exact ⟨0, rfl, hsettled, fun _ => hsettled.lasts⟩
  | @tail d₁ d₂ _ hmove ih =>
    obtain ⟨k, hsession, hsettled₁, hlasts⟩ := ih
    have hconfig : d₁.session.config = d.session.config := by rw [hsession]
    rcases hmove.passes (hconfig.symm ▸ hsuits) (hconfig.symm ▸ hsettled₁) with ⟨hsame, hlasts'⟩ | ⟨hnext, hsettled₂⟩
    · rw [hconfig] at hlasts'
      exact ⟨k, hsame.trans hsession, hlasts'.settled, fun hk => (hlasts hk).trans hlasts'⟩
    · rw [hconfig] at hsettled₂
      exact ⟨k + 1, by rw [hnext, hsession]; rfl, hsettled₂, fun hk => absurd hk k.succ_ne_zero⟩

/-- In the generation of a session in which a slot held an object, calls by its handle get to that object or nowhere. -/
theorem Moves.routes (hsuits : d.session.config.Suits) (hstands : d.session.config.Stands m slots d.state)
    (hslot : slots[q.index]? = some (.object a)) (hmoves : Moves d d')
    (hgeneration : d'.session.generation = d.session.generation) : d.session.config.Routes d'.state q a := by
  obtain ⟨k, hsession, -, hlasts⟩ := hmoves.passes hsuits (.inr ⟨m, slots, hstands⟩)
  rw [hsession] at hgeneration
  rcases hlasts (Nat.add_left_cancel hgeneration) with hvacant | ⟨m', slots₀, slots', hstands₀, hlonger, hstands'⟩
  · exact hvacant.routes hsuits q a
  · obtain ⟨rfl, rfl⟩ := hstands.unique hstands₀
    exact hstands'.routes hsuits (slot_of_longer hlonger hslot)

/-- A reference with the token that the converter gave for an object, in the generation in which it was given. Whatever
has happened since, a call that the session lets through gets to that object, or there is no table and it fails. -/
theorem Moves.converted_reference_routes {r : Reference} {t : String} (hsuits : d.session.config.Suits)
    (hsettled : d.session.config.Settled d.state)
    (hf : d.state.Holds Heap.global (.ofText d.session.config.converterName) (.object f))
    (hcode : d.state.code? f = some (.tool .convert m)) (harray : d.state.isArray a = false)
    (hrun : outcome (Run.invoke (.object f) this (.object a :: args)) d.state = (.ok (.text t), d₁.state))
    (hsession : d₁.session = d.session) (hroom : d.session.config.HasRoom d₁.state)
    (hhandle : Handle.ofToken? t = some r.handle) (hgeneration : r.generation = d.session.generation)
    (hmoves : Moves d₁ d₂) (hcheck : d₂.session.check r = .ok ()) : d.session.config.Routes d₂.state r.handle a := by
  rcases hsettled with hvacant | ⟨m', slots, hstands⟩
  · exact absurd hf (hvacant.not_holds (.tail _ (.head _)))
  obtain rfl := hstands.memory_eq ⟨f, hf, hcode⟩
  obtain ⟨q, h', slots', htoken, hstands', hslot⟩ := hstands.converts hsuits.toDistinct harray hcode this args
    (by rw [hrun]; exact hroom)
  obtain ⟨hvalue, rfl⟩ := Prod.mk.inj (htoken.symm.trans hrun)
  obtain rfl : q.token = t := Content.text.inj (Value.string.inj (Except.ok.inj hvalue))
  obtain rfl := Option.some.inj ((Handle.ofToken?_token q).symm.trans hhandle)
  have howns : d₂.session.owns r = true := by rw [owns, hcheck]
  have hcurrent := ((d₂.session.owns_iff r).1 howns).2.2
  rw [← hsession] at hsuits hstands' ⊢
  exact hmoves.routes hsuits hstands' hslot (hcurrent.symm.trans (hgeneration.trans (by rw [hsession])))

/-- An expression that is captured is what a page does, and the steps of a conversion. -/
theorem Moves.captured {e : Expr} {statement : String} (hsuits : d.session.config.Suits)
    (hsettled : d.session.config.Settled d.state) (hstatement : IsExpression statement.toList)
    (hnull : NullFree statement.toList) (hread : Parser.expression? statement.toList = .ok e)
    (hminds : d.session.config.Minds d.state (outcome (e.evaluate .body) d.state).2)
    (hsized : (outcome (e.evaluate .body) d.state).2.Sized)
    (hroom : d.session.config.HasRoom (d.captured engine statement).state) : Moves d (d.captured engine statement) := by
  have hvariable := hsuits.converterVariable
  obtain ⟨e₀, es, hread', heval⟩ :=
    Embedded.evaluate_captureScript hsuits.sound hvariable.1 hstatement hnull
  obtain rfl := Except.ok.inj (hread.symm.trans hread')
  have hstate : (d.captured engine statement).state =
      (outcome ((Expr.call (.name d.session.config.converterName) (e₀ :: es)).evaluate .body) d.state).2 :=
    (congrArg Reply.state (heval d.state)).trans (Embedded.reply_state ..)
  rcases hsettled with hvacant | ⟨m, slots, hstands⟩
  · obtain ⟨t, ht⟩ := hvacant.outcome_call hsuits (e₀ :: es)
    rw [ht] at hstate
    exact .single (.minded rfl (by rw [hstate]; exact .refl _ _))
  · obtain ⟨f, hf, hcode⟩ := hstands.serves
    rw [Expr.outcome_call_name hvariable.2 hf] at hstate
    rw [Expr.outcome_joined .body e₀ es []] at hminds hsized
    rcases hall : outcome (Expr.evaluateAll .body [] (e₀ :: es)) d.state with ⟨t | vs, h⟩ <;> rw [hall] at hminds hsized
    · rw [outcome_bind_error hall] at hstate
      exact .single (.minded rfl (by rw [hstate]; exact hminds))
    · rw [outcome_bind_ok hall] at hstate
      have hstands' := hstands.minds hminds
      obtain ⟨inner, hinner, hrun⟩ := Converter.outcome_invoke (hminds.code f _ hcode) .undefined vs
      have hstrides := Converter.strides_convert hinner (Converter.fuelFor h) (v := vs.headD .undefined)
        ⟨slots, hstands'.guarded⟩ hsized
      have hfirst : Move d { d with state := h } := .minded rfl hminds
      refine .tail (.single hfirst) (.strode (m := m) rfl hstands'.serves ?_ hroom)
      rw [hstate, hrun]
      exact hstrides

/-- A session over a new engine finds a table that stands, or none, at all times. -/
theorem Moves.settled (hsuits : d.session.config.Suits) (hnew : d.state = Heap.initial) (hmoves : Moves d d') :
    d'.session.config.Suits ∧ d'.session.config.Settled d'.state := by
  obtain ⟨k, hsession, hsettled, -⟩ := hmoves.passes hsuits (.inl (by rw [hnew]; exact hsuits.initial))
  rw [hsession]
  exact ⟨hsuits, hsettled⟩

section Evaluated

variable {σ : Type} {E : Engine σ} {d : Desk σ}

/-- An evaluation leaves the state that its capture leaves. -/
theorem evaluateAs_state {shape : Shape} (statement : String) (hgeneration : d.session.generation ≠ 0)
    (hvoid : shape.isVoid = false) :
    (outcome (evaluateAs E statement shape) d).2.state = (d.captured E statement).state := by
  rw [outcome_evaluateAs_eq E statement d hgeneration hvoid, outcome_bind, Work.outcome_orThrow]
  rcases (E.evaluate (d.session.captureScript statement) d.state).result with e | w
  · rfl
  · change (outcome (converted (d.session.fromWire w shape)) (d.captured E statement)).2.state = _
    rw [outcome_converted]

/-- From the token of a handle it mints a reference with that handle. -/
theorem evaluateAs_token {statement : String} (name : String) (hgeneration : d.session.generation ≠ 0)
    (hresult : (E.evaluate (d.session.captureScript statement) d.state).result = .ok (.text q.token)) :
    (outcome (evaluateAs E statement (.capability name)) d).1 = .ok (.ref (d.session.mint q name)) := by
  have hhandle : (Wire.text q.token).handle? = some q := Handle.ofToken?_token q
  rw [outcome_evaluateAs_eq E statement d hgeneration rfl, outcome_bind, Work.outcome_orThrow, hresult]
  change (outcome (converted (d.session.fromWire (.text q.token) (.capability name))) (d.captured E statement)).1 = _
  rw [outcome_converted, fromWire_reference _ name rfl, referenceOf_token _ name hhandle]
  rfl

end Evaluated

/-- An evaluation is what a page does, the steps of a conversion, and no more. -/
theorem Moves.evaluated {e : Expr} {statement : String} {shape : Shape} (hsuits : d.session.config.Suits)
    (hsettled : d.session.config.Settled d.state) (hstatement : IsExpression statement.toList)
    (hnull : NullFree statement.toList) (hread : Parser.expression? statement.toList = .ok e)
    (hgeneration : d.session.generation ≠ 0) (hvoid : shape.isVoid = false)
    (hminds : d.session.config.Minds d.state (outcome (e.evaluate .body) d.state).2)
    (hsized : (outcome (e.evaluate .body) d.state).2.Sized)
    (hroom : d.session.config.HasRoom (outcome (evaluateAs engine statement shape) d).2.state) :
    Moves d (outcome (evaluateAs engine statement shape) d).2 := by
  have hstate := evaluateAs_state (E := engine) statement hgeneration hvoid
  have hsession := evaluateAs_keeps (E := engine) statement shape d
  rw [hstate] at hroom
  refine (Moves.captured hsuits hsettled hstatement hnull hread hminds hsized hroom).tail (.minded hsession ?_)
  rw [hstate]
  exact .refl _ _

/-- Only a session with a table gets references from evaluations. -/
private theorem stands_of_reference {name statement : String} {r : Reference} (hsuits : d.session.config.Suits)
    (hsettled : d.session.config.Settled d.state) (hstatement : IsExpression statement.toList)
    (hnull : NullFree statement.toList)
    (hrun : outcome (evaluateAs engine statement (.capability name)) d = (.ok (.ref r), d₁)) :
    d.session.generation ≠ 0 ∧ ∃ m slots, d.session.config.Stands m slots d.state := by
  have hgeneration : d.session.generation ≠ 0 := by
    intro hnone
    have hinstalled : d.session.requireInstalled = .error .notInstalled := if_pos hnone
    rw [evaluateAs, outcome_bind_ok (Work.outcome_session d), hinstalled, outcome_bind_error (Work.outcome_require _ d)] at hrun
    cases hrun
  refine ⟨hgeneration, hsettled.resolve_left fun hvacant => ?_⟩
  obtain ⟨e, es, -, heval⟩ :=
    Embedded.evaluate_captureScript hsuits.sound hsuits.converterVariable.1 hstatement hnull
  obtain ⟨t, ht⟩ := hvacant.outcome_call hsuits (e :: es)
  rw [outcome_evaluateAs_eq engine statement d hgeneration rfl, heval, Embedded.reply_of_error ht] at hrun
  cases hrun

/-- No call is misrouted. Over a new engine a session has done anything, and evaluates an expression whose value in front
of its first outermost comma is an object. However things go on, with tables installed or not and contexts reloaded, a call
of the reference that the session lets through gets to that object, or there is no table and the call fails. -/
theorem reference_routes {d₀ : Desk Heap} {name statement : String} (hsuits : d₀.session.config.Suits)
    (hnew : d₀.state = Heap.initial) (hearlier : Moves d₀ d) (hstatement : IsExpression statement.toList)
    (hnull : NullFree statement.toList) : ∃ e es, Parser.expression? statement.toList = .ok (joined e es) ∧
      ∀ a vs h, outcome (Expr.evaluateAll .body [] (e :: es)) d.state = (.ok (.object a :: vs), h) →
        d.session.config.Minds d.state h → h.isArray a = false →
        ∀ r d₁, outcome (evaluateAs engine statement (.capability name)) d = (.ok (.ref r), d₁) →
          d.session.config.HasRoom d₁.state →
          ∀ d₂, Moves d₁ d₂ → d₂.session.check r = .ok () → d.session.config.Routes d₂.state r.handle a := by
  obtain ⟨hsuits, hsettled⟩ := hearlier.settled hsuits hnew
  obtain ⟨e, es, hread, heval⟩ :=
    Embedded.evaluate_captureScript hsuits.sound hsuits.converterVariable.1 hstatement hnull
  refine ⟨e, es, hread, fun a vs h hall hminds harray r d₁ hrun hroom d₂ hmoves hcheck => ?_⟩
  obtain ⟨hgeneration, m, slots, hstands⟩ := stands_of_reference hsuits hsettled hstatement hnull hrun
  obtain ⟨f, hf, hcode⟩ := hstands.converter
  have hstands' := hstands.minds hminds
  have hcode' := hminds.code f _ hcode
  -- The capture is the conversion of the object.
  have hreply : engine.evaluate (d.session.captureScript statement) d.state = conversion f (.object a) h := by
    rw [heval, ← Embedded.reply_of_values hall hcode']
    exact Embedded.reply_congr (Expr.outcome_call_name hsuits.converterVariable.2 hf.holds _) Embedded.toWire
  have hsession : d₁.session = d.session := by
    simpa only [hrun] using evaluateAs_keeps (E := engine) statement (.capability name) d
  have hstate : d₁.state = (outcome (Run.invoke (.object f) .undefined [.object a]) h).2 := by
    have hcaptured : (outcome (evaluateAs engine statement (.capability name)) d).2.state = _ :=
      evaluateAs_state statement hgeneration rfl
    rw [hrun] at hcaptured
    exact hcaptured.trans ((congrArg Reply.state hreply).trans (Embedded.conversion_state f _ h))
  obtain ⟨q, h', slots', htoken, -, -⟩ := hstands'.converts hsuits.toDistinct harray hcode' .undefined []
    (by rw [← hstate]; exact hroom)
  have hresult : (engine.evaluate (d.session.captureScript statement) d.state).result = .ok (.text q.token) := by
    rw [hreply, Embedded.conversion_of_ok htoken]
    exact Embedded.toWire_text h' q.token
  obtain rfl : r = d.session.mint q name := by
    have hmint := evaluateAs_token name hgeneration hresult
    rw [hrun] at hmint
    exact Native.ref.inj (Except.ok.inj hmint)
  rw [htoken] at hstate
  exact Moves.converted_reference_routes (d := { d with state := h }) hsuits (.inr ⟨m, slots, hstands'⟩)
    (hf.congr (hminds.names _ (.tail _ (.head _)) _ (.head _))).holds hcode' harray (by rw [htoken, hstate]) hsession hroom
    (Handle.ofToken?_token q) rfl hmoves hcheck

end Session

end ScriptBridge
