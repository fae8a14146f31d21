import ScriptBridge.Engine.Embedded
import ScriptBridge.Proofs.Converting
import ScriptBridge.Proofs.Generations

/-! Capturing of rendered values. A value that is rendered, read, evaluated and converted comes back in the wire form
that it has without the engine, and nothing that was in the heap is changed on the way. -/
namespace ScriptBridge

open Script

mutual
/-- The texts in a value. -/
def Native.strings : Native → List String
  | .text s => [s]
  | .array items => itemStrings items
  | _ => []

def Native.itemStrings : List Native → List String
  | [] => []
  | v :: rest => v.strings ++ itemStrings rest
end

/-- No character is the one that ends the texts of the engine's own language. -/
def NullFree (text : List Char) : Prop := ∀ c ∈ text, c.toNat ≠ 0

namespace NullFree

variable {as bs : List Char} {c : Char}

theorem nil : NullFree [] := nofun

theorem append (has : NullFree as) (hbs : NullFree bs) : NullFree (as ++ bs) := fun c hc =>
  (List.mem_append.1 hc).elim (has c) (hbs c)

theorem cons (hc : c.toNat ≠ 0) (has : NullFree as) : NullFree (c :: as) := fun d hd => by
  rcases List.mem_cons.1 hd with rfl | hd
  · exact hc
  · exact has d hd

theorem of_all (has : as.all (fun c => c.toNat != 0) = true) : NullFree as := fun c hc =>
  bne_iff_ne.1 (List.all_eq_true.1 has c hc)

theorem of_digits (has : ∀ c ∈ as, c.isDigit = true) : NullFree as := fun c hc hzero => by
  have hdigit := has c hc
  obtain rfl : c = Char.ofNat 0 := by rw [← hzero, Char.ofNat_toNat]
  cases hdigit

theorem of_identifier (has : isIdentifier as = true) : NullFree as := fun c hc hzero => by
  obtain rfl : c = Char.ofNat 0 := by rw [← hzero, Char.ofNat_toNat]
  have hpart : isIdentifierPart (Char.ofNat 0) = true := by
    cases as with
    | nil => cases hc
    | cons d rest =>
      simp only [isIdentifier, Bool.and_eq_true, List.all_eq_true] at has
      rcases List.mem_cons.1 hc with rfl | hc
      · cases has.1
      · exact has.2 _ hc
  cases hpart

theorem decimal {n : Double.Decimal} (hn : n.WellFormed) : NullFree n.text := by
  refine append (append (of_digits hn.whole) ?_) ?_
  · cases hfraction : n.fraction with
    | none => exact nofun
    | some ds => exact cons (by decide) (of_digits (hn.fraction ds hfraction))
  · rcases hexponent : n.exponent with _ | ⟨letter, sign, digits⟩
    · exact nofun
    · obtain ⟨hletter, hsign, -, hdigits⟩ := hn.exponent _ hexponent
      refine cons ?_ (append ?_ (of_digits hdigits))
      · rcases hletter with h | h <;> simp only at h <;> rw [h] <;> decide
      · cases sign with
        | none => exact nofun
        | some c =>
          refine cons ?_ nil
          rcases hsign c rfl with rfl | rfl <;> decide

theorem double (x : Double) : NullFree (x.text .expression) := by
  cases hnan : x.isNaN with
  | true =>
    rw [Double.text, if_pos hnan]
    exact of_all (by decide)
  | false =>
    rw [Token.text_eq_magnitude hnan]
    refine append ?_ ?_
    · split
      · exact cons (by decide) nil
      · exact nil
    · split
      · exact of_all (by decide)
      · exact decimal (x.written_wellFormed .expression)

theorem quoted {s : String} (hs : NullFree s.toList) : NullFree (Expression.quoted s) := by
  have hescape : NullFree (Text.escape s.toList) := by
    rw [Text.escape_eq_flatMap]
    intro d hd
    obtain ⟨c, hc, hd⟩ := List.mem_flatMap.1 hd
    rw [← StringLiteral.ofChar_text] at hd
    rcases StringLiteral.ofChar_cases c with ⟨e, he, hchar⟩ | ⟨hchar, -⟩ <;> rw [hchar] at hd
    · have hescapes : ∀ p ∈ Text.escapes, p.2.toNat ≠ 0 := by decide
      exact cons (by decide) (cons (hescapes _ he) nil) d hd
    · obtain rfl : d = c := List.mem_singleton.1 hd
      exact hs d hc
  exact cons (by decide) (append hescape (cons (by decide) nil))

theorem separated {texts : List (List Char)} (htexts : ∀ t ∈ texts, NullFree t) :
    NullFree (Expression.separated texts) := by
  induction texts with
  | nil => exact nofun
  | cons t rest ih =>
    have ht := htexts t List.mem_cons_self
    cases rest with
    | nil => exact ht
    | cons u rest =>
      exact append ht (cons (by decide) (ih fun v hv => htexts v (List.mem_cons_of_mem t hv)))

variable {table : String} {owner : Option Session}

mutual
/-- A rendered value has a null character only in its texts. -/
theorem argument (htable : isIdentifier table.toList = true) : (v : Native) →
    (∀ t ∈ v.strings, NullFree t.toList) → NullFree (Expression.argument table owner v)
  | .null, _ => by rw [Expression.argument]; exact of_all (by decide)
  | .bool b, _ => by rw [Expression.argument]; cases b <;> exact of_all (by decide)
  | .int n, _ => by rw [Expression.argument]; exact double _
  | .long n, _ => by rw [Expression.argument]; exact double _
  | .double x, _ => by rw [Expression.argument]; exact double x
  | .text t, ht => by rw [Expression.argument]; exact quoted (ht t List.mem_cons_self)
  | .array items, ht => by
    rw [Expression.argument]
    exact cons (by decide) (append (separated (arguments htable items ht)) (cons (by decide) nil))
  | .ref r, _ => by
    rw [Expression.argument]
    split
    · have hindex : NullFree r.handle.numeralText := of_digits fun _ => Text.isDigit_of_mem_decimal
      exact append (append (of_identifier htable) (cons (by decide) hindex)) (cons (by decide) nil)
    · exact of_all (by decide)
  | .foreign _, _ => by rw [Expression.argument]; exact of_all (by decide)

theorem arguments (htable : isIdentifier table.toList = true) : (vs : List Native) →
    (∀ t ∈ Native.itemStrings vs, NullFree t.toList) → ∀ t ∈ Expression.arguments table owner vs, NullFree t
  | [], _ => nofun
  | v :: rest, ht => by
    rw [Expression.arguments]
    intro t hmem
    rcases List.mem_cons.1 hmem with rfl | hmem
    · exact argument htable v fun u hu => ht u (List.mem_append_left _ hu)
    · exact arguments htable rest (fun u hu => ht u (List.mem_append_right _ hu)) t hmem
end

theorem nullAt? (has : NullFree as) : Embedded.nullAt? as = none := by
  induction as with
  | nil => rfl
  | cons c rest ih =>
    rw [Embedded.nullAt?, if_neg (has c List.mem_cons_self), ih fun d hd => has d (List.mem_cons_of_mem c hd)]
    rfl

/-- The capture of a statement has a null character only where the statement has one. -/
theorem captureScript {s : Session} (hconverter : isIdentifier s.config.converterName.toList = true) {statement : String}
    (hstatement : NullFree statement.toList) : NullFree (s.captureScript statement).toList := by
  have hword : NullFree "return ".toList := .of_all (by decide)
  have hopen : NullFree "(".toList := .of_all (by decide)
  have hclose : NullFree ");".toList := .of_all (by decide)
  simp only [Session.captureScript, String.toList_append]
  exact (((hword.append (.of_identifier hconverter)).append hopen).append hstatement).append hclose

/-- A script has a null character as the body of a function only where it has one itself. -/
theorem nullAt?_wrap {script : String} (hscript : NullFree script.toList) :
    Embedded.nullAt? (Embedded.wrap script.toList) = none := by
  have hfront : NullFree "(function () \x7b\n".toList := .of_all (by decide)
  have hback : NullFree "\n\x7d)()".toList := .of_all (by decide)
  exact ((hfront.append hscript).append hback).nullAt?

end NullFree
namespace Script

variable {h h' : Heap} {m : Memory} {s : Session}

theorem Converter.fuelFor_pos (h : Heap) : 0 < fuelFor h := by
  refine Array.foldl_induction (motive := fun _ (n : Nat) => 0 < n) (by decide) fun i n hn => ?_
  split <;> omega

/-- A function that is called by its name is found before its arguments are evaluated. -/
theorem Expr.outcome_call_name {x : String} {f : Address} (hx : x ≠ "arguments")
    (hf : h.Holds Heap.global (.ofText x) (.object f)) (args : List Expr) :
    outcome ((Expr.call (.name x) args).evaluate .body) h =
      outcome (Expr.evaluateAll .body [] args >>= Run.invoke (.object f) .undefined) h := by
  rw [evaluate, outcome_bind_ok (outcome_name rfl hx hf)]
  · exact nofun
  · exact nofun

theorem Expr.outcome_call {x : String} {e : Expr} {f : Address} {v w : Value} {h₁ h₂ : Heap} {c : Code}
    (hx : x ≠ "arguments") (hf : h.Holds Heap.global (.ofText x) (.object f)) (hcode : h₁.code? f = some c)
    (hv : outcome (e.evaluate .body) h = (.ok v, h₁))
    (hw : outcome (c.run (Run.callWithin (4 * h₁.objects.size + 15)) .undefined [v]) h₁ = (.ok w, h₂)) :
    outcome ((Expr.call (.name x) [e]).evaluate .body) h = (.ok w, h₂) := by
  have hall : outcome (Expr.evaluateAll .body [] [e]) h = (.ok [v], h₁) := by
    rw [evaluateAll, outcome_bind_ok hv]
    rfl
  rw [outcome_call_name hx hf, outcome_bind_ok hall, Run.invoke, outcome_bind_ok (outcome_get h₁), Run.depthFor,
    Run.outcome_callWithin hcode]
  exact hw

/-- What the converter makes of a rendered value. -/
theorem outcome_capture (hinstalled : Installed s.config m h) (hconverter : s.config.converterName ≠ "arguments")
    (htable : s.config.tableName ≠ "arguments") {v : Native} (hknows : m.Knows h s v.references)
    (hwidth : v.width < 2 ^ 32) : ∃ w h', outcome ((Program.statements
      [.result (some (.call (.name s.config.converterName) [v.expr s.config.tableName (some s)]))]).run .body) h =
        (.ok w, h') ∧ h.Grown h' ∧ Embedded.toWire h' w = .ok v.toWire.canonical := by
  obtain ⟨u, h₁, hu, hmakes⟩ := Expr.outcome_value htable v hinstalled hknows hwidth
  have hinstalled₁ := hinstalled.grown hmakes.grown
  have hfuel : v.toWire.canonical.cost < Converter.fuelFor h₁ :=
    Nat.lt_of_lt_of_le (Nat.lt_add_of_pos_left (Converter.fuelFor_pos h)) hmakes.fuel
  obtain ⟨f, hf, hcode⟩ := hinstalled.converter
  obtain ⟨w, h', hw, hconverts⟩ := Converter.outcome_convert (4 * h₁.objects.size + 13) _ hinstalled₁.library
    hinstalled₁.works hmakes.lies hfuel
  refine ⟨w, h', ?_, hmakes.grown.trans hconverts.grown, ?_⟩
  · exact Expr.outcome_call hconverter hf (hmakes.grown.code? hcode) hu ((outcome_bind_ok (outcome_get h₁)).trans hw)
  · exact toWire_of_lies hconverts.lies (Nat.le_trans (Nat.le_add_left _ _) hconverts.deep)

end Script

namespace Session

variable {s : Session}

private theorem toInt32_canonical (x : Double) : x.canonical.toInt32 = x.toInt32 := by
  unfold Double.canonical
  split
  · rename_i hnan
    rw [Double.toInt32, Double.toInt32, Double.narrow, Double.narrow, if_pos hnan]
    rfl
  · rfl

private theorem toInt64_canonical (x : Double) : x.canonical.toInt64 = x.toInt64 := by
  unfold Double.canonical
  split
  · rename_i hnan
    rw [Double.toInt64, Double.toInt64, Double.narrow, Double.narrow, if_pos hnan]
    rfl
  · rfl

/-- A conversion of which the result is put into its canonical form. -/
private def canonicalResult (c : Converted Native) : Converted Native := ⟨c.result.map Native.canonical, c.events⟩

private theorem canonicalResult_referenceOf (s : Session) (name : String) (w : Wire) :
    canonicalResult (s.referenceOf name w) = s.referenceOf name w := by
  unfold referenceOf
  split
  · rfl
  · unfold repair
    cases s.config.tokenPolicy <;> rfl

mutual
private theorem passThrough_canonical : (w : Wire) → w.canonical.passThrough = w.passThrough.canonical
  | .null => rfl
  | .bool _ => rfl
  | .number _ => rfl
  | .text _ => rfl
  | .array items => by
    rw [Wire.canonical, Wire.passThrough, Wire.passThrough, Native.canonical, passThroughItems_canonical items]

private theorem passThroughItems_canonical : (ws : List Wire) →
    Wire.passThroughItems (Wire.canonicalItems ws) = Native.canonicalItems (Wire.passThroughItems ws)
  | [] => rfl
  | w :: rest => by
    rw [Wire.canonicalItems, Wire.passThroughItems, Wire.passThroughItems, Native.canonicalItems,
      passThrough_canonical w, passThroughItems_canonical rest]
end

mutual
/-- Conversion for a shape keeps the canonical form. -/
theorem fromWire_canonical (s : Session) : (w : Wire) → (shape : Shape) →
    s.fromWire w.canonical shape = canonicalResult (s.fromWire w shape)
  | .null, shape => by
    rw [Wire.canonical, fromWire]
    · rfl
    all_goals exact nofun
  | .bool b, shape => by
    cases shape with
    | capability name => exact (canonicalResult_referenceOf s name (.bool b)).symm
    | _ => rfl
  | .number x, shape => by
    cases shape with
    | capability name => exact (canonicalResult_referenceOf s name (.number x)).symm
    | int => exact congrArg (fun n => (⟨.ok (.int n), []⟩ : Converted Native)) (toInt32_canonical x)
    | long => exact congrArg (fun n => (⟨.ok (.long n), []⟩ : Converted Native)) (toInt64_canonical x)
    | _ => rfl
  | .text t, shape => by
    cases shape with
    | capability name => exact (canonicalResult_referenceOf s name (.text t)).symm
    | _ => rfl
  | .array items, shape => by
    cases shape with
    | capability name => exact (canonicalResult_referenceOf s name (.array items)).symm
    | array element =>
      rw [Wire.canonical, fromWire, fromWire, fromWireItems_canonical s items element]
      cases (s.fromWireItems items element).result <;> rfl
    | _ => exact congrArg (fun v => (⟨.ok v, []⟩ : Converted Native)) (passThrough_canonical (.array items))

theorem fromWireItems_canonical (s : Session) : (ws : List Wire) → (element : Shape) →
    s.fromWireItems (Wire.canonicalItems ws) element =
      ⟨(s.fromWireItems ws element).result.map Native.canonicalItems, (s.fromWireItems ws element).events⟩
  | [], element => by
    rw [Wire.canonicalItems, fromWireItems]
    rfl
  | w :: rest, element => by
    rw [Wire.canonicalItems, fromWireItems, fromWireItems, fromWire_canonical s w element,
      fromWireItems_canonical s rest element]
    rcases s.fromWire w element with ⟨e | v, events⟩
    · rfl
    · rcases s.fromWireItems rest element with ⟨e | vs, others⟩ <;> rfl
end

end Session

namespace Embedded

theorem reply_of_ok {α β : Type} {a : Run α} {h h' : Heap} {x : α} (ha : outcome a h = (.ok x, h'))
    (result : Heap → α → Except EngineError β) : reply h a result = ⟨result h' x, h', []⟩ := by
  have hrun : a.run h = (.ok x, h') := ha
  rw [reply, hrun]

theorem reply_of_error {α β : Type} {a : Run α} {h h' : Heap} {t : Thrown} (ha : outcome a h = (.error t, h'))
    (result : Heap → α → Except EngineError β) : reply h a result = raised h' (thrownMessage h' t) := by
  have hrun : a.run h = (.error t, h') := ha
  rw [reply, hrun]

theorem reply_state {α β : Type} (a : Run α) (h : Heap) (result : Heap → α → Except EngineError β) :
    (reply h a result).state = (outcome a h).2 := by
  rcases ha : outcome a h with ⟨t | x, h'⟩
  · rw [reply_of_error ha]
    rfl
  · rw [reply_of_ok ha]

end Embedded

/-- A name that the body of a function can use for a variable of the page. -/
def IsVariable (x : String) : Prop := x ∉ Parser.reserved ∧ x ≠ "arguments"

/-- The rules that the names of a configuration have to meet. -/
structure Config.Sound (c : Config) : Prop where
  table : isIdentifier c.tableName.toList = true
  converter : isIdentifier c.converterName.toList = true
  tag : isIdentifier c.tagProperty.toList = true
  apart : c.tableName ≠ c.converterName
  root : isDottedPath c.rootExpression.toList = true

theorem Config.sound_of_validate {c : Config} (hvalid : c.validate = .ok ()) : c.Sound := by
  have hfault : c.fault? = none := by
    unfold validate at hvalid
    cases hfault : c.fault? with
    | none => rfl
    | some f => simp [hfault] at hvalid
  have hpass {b : Bool} {f : ConfigFault} (h : (if b = true then none else some f) = none) : b = true := by
    by_contra hb
    simp [hb] at h
  simp only [fault?, Option.orElse_eq_orElse, Option.orElse_eq_or, Option.or_eq_none_iff] at hfault
  obtain ⟨htable, hconverter, htag, hsame, hroot, -⟩ := hfault
  refine ⟨hpass htable, hpass hconverter, hpass htag, fun h => ?_, hpass hroot⟩
  rw [if_pos h] at hsame
  cases hsame

/-- The engine converts a rendered value into the wire form that the value has. -/
theorem Embedded.evaluate_capture {s : Session} {m : Memory} {h : Heap} (hvalid : s.config.validate = .ok ())
    (htable : IsVariable s.config.tableName) (hconverter : IsVariable s.config.converterName)
    (hinstalled : Installed s.config m h) {v : Native} (hknows : m.Knows h s v.references)
    (hnull : ∀ t ∈ v.strings, NullFree t.toList) (hnesting : v.nesting < Parser.depthBound) (hwidth : v.width < 2 ^ 32) :
    ∃ h', h.Grown h' ∧
      engine.evaluate (s.captureScript (s.argument v)) h = ⟨.ok v.toWire.canonical, h', []⟩ := by
  obtain ⟨hidentifier, hidentifier', -⟩ := Config.sound_of_validate hvalid
  obtain ⟨w, h', hrun, hgrown, hwire⟩ := Script.outcome_capture hinstalled hconverter.2 htable.2 hknows hwidth
  have hbody := Session.ofBody_capture hidentifier' hidentifier hconverter.1 htable.1 hnesting
  have hnone : nullAt? (wrap (s.captureScript (s.argument v)).toList) = none := by
    have hargument : NullFree (s.argument v).toList := by
      rw [Session.argument, String.toList_ofList]
      exact NullFree.argument hidentifier v hnull
    exact (NullFree.captureScript hidentifier' hargument).nullAt?_wrap
  refine ⟨h', hgrown, ?_⟩
  change launch _ _ .body toWire h = _
  unfold launch
  rw [hnone, hbody]
  change reply h _ toWire = _
  rw [reply_of_ok hrun, hwire]

/-- The desk of a session once the capture of a statement has been answered. -/
def Desk.captured {σ : Type} (E : Engine σ) (d : Desk σ) (statement : String) : Desk σ :=
  (Work.answered (.evaluate (d.session.captureScript statement))
    (E.evaluate (d.session.captureScript statement) d.state) d).2

namespace Session

open Embedded (engine)

private theorem outcome_converted_canonical {σ : Type} (c : Converted Native) (d : Desk σ) :
    outcome (converted (canonicalResult c) : Work σ Native) d =
      ((outcome (converted c : Work σ Native) d).1.map Native.canonical, (outcome (converted c : Work σ Native) d).2) := by
  rw [outcome_converted, outcome_converted, canonicalResult]
  cases c.result <;> rfl

theorem outcome_capture_eq {σ : Type} (E : Engine σ) (statement : String) (d : Desk σ) :
    outcome (capture E statement) d =
      ((E.evaluate (d.session.captureScript statement) d.state).result.mapError .engine, d.captured E statement) := by
  rw [capture, outcome_bind, outcome_monadLift]
  exact Work.outcome_orThrow _ _

/-- An evaluation where a value is expected is the capture of an expression, and converts the wire value. -/
theorem outcome_evaluateAs_eq {σ : Type} (E : Engine σ) (statement : String) (d : Desk σ)
    (hgeneration : d.session.generation ≠ 0) {shape : Shape} (hvoid : shape.isVoid = false) :
    outcome (evaluateAs E statement shape) d =
      outcome (Work.orThrow (E.evaluate (d.session.captureScript statement) d.state).result >>= fun w =>
        (converted (d.session.fromWire w shape) : Work σ Native)) (d.captured E statement) := by
  have hinstalled : d.session.requireInstalled = .ok () := if_neg hgeneration
  rw [evaluateAs, outcome_bind_ok (Work.outcome_session d), hinstalled, outcome_bind_ok (Work.outcome_require _ d), hvoid,
    if_neg Bool.false_ne_true, outcome_bind, outcome_bind, outcome_capture_eq, Work.outcome_orThrow]
  rcases (E.evaluate (d.session.captureScript statement) d.state).result with e | w <;> rfl

/-- A rendered value is captured in the wire form that it has, and comes back as what that form is converted to. In
the heap objects are added and none is changed, so the table keeps its slots. -/
theorem capture_argument (d : Desk Heap) (m : Memory) (v : Native) (hvalid : d.session.config.validate = .ok ())
    (htable : IsVariable d.session.config.tableName) (hconverter : IsVariable d.session.config.converterName)
    (hgeneration : d.session.generation ≠ 0) (hinstalled : Installed d.session.config m d.state)
    (hknows : m.Knows d.state d.session v.references) (hnull : ∀ t ∈ v.strings, NullFree t.toList)
    (hnesting : v.nesting < Parser.depthBound) (hwidth : v.width < 2 ^ 32) :
    ∃ h', d.state.Grown h' ∧ ∃ d' : Desk Heap, d'.session = d.session ∧ d'.state = h' ∧
      outcome (capture engine (d.session.argument v)) d = (.ok v.toWire.canonical, d') ∧
      ∀ shape, shape.isVoid = false → outcome (evaluateAs engine (d.session.argument v) shape) d =
        outcome (Native.canonical <$> converted (d.session.fromWire v.toWire shape)) d' := by
  obtain ⟨h', hgrown, heval⟩ := Embedded.evaluate_capture hvalid htable hconverter hinstalled hknows hnull hnesting hwidth
  let d' : Desk Heap := d.captured engine (d.session.argument v)
  have hstate : d'.state = h' := congrArg Reply.state heval
  refine ⟨h', hgrown, d', rfl, hstate, ?_, fun shape hvoid => ?_⟩
  · rw [outcome_capture_eq, heval]
    rfl
  · have hthrow : outcome (Work.orThrow (.ok v.toWire.canonical) : Work Heap Wire) d' = (.ok v.toWire.canonical, d') :=
      Work.outcome_orThrow _ d'
    rw [outcome_evaluateAs_eq engine _ d hgeneration hvoid, heval, outcome_bind_ok hthrow, fromWire_canonical, outcome_map]
    exact outcome_converted_canonical _ d'

end Session
end ScriptBridge
