import ScriptBridge.Proofs.CapturedExpressions
import ScriptBridge.Proofs.FaithfulConversion
import ScriptBridge.Proofs.RoundTrip

/-! What registration makes of the values of a script. Objects get handles, and neither arrays nor booleans nor numbers
do. But a string that reads as a token is no other to the native side than the token of an object, and gives the handle
that it spells, be there a slot of that number or not. -/
namespace ScriptBridge

open Script
open Script.Parser (joined)
open Embedded (engine reply toWire conversion)

namespace Embedded

variable {h h' : Heap} {f : Address} {v u : Value}

theorem conversion_of_ok (hrun : outcome (Run.invoke (.object f) .undefined [v]) h = (.ok u, h')) :
    conversion f v h = ⟨toWire h' u, h', []⟩ := reply_of_ok hrun toWire

theorem conversion_of_error {t : Thrown} (hrun : outcome (Run.invoke (.object f) .undefined [v]) h = (.error t, h')) :
    conversion f v h = raised h' (thrownMessage h' t) := reply_of_error hrun toWire

theorem conversion_state (f : Address) (v : Value) (h : Heap) :
    (conversion f v h).state = (outcome (Run.invoke (.object f) .undefined [v]) h).2 := Embedded.reply_state ..

theorem toWire_text (h : Heap) (t : String) : toWire h (.string (.text t)) = .ok (.text t) := by
  unfold toWire
  cases h.objects.size <;> rfl

/-- Objects that are handed out are handed out as arrays, if at all. -/
theorem toWire_object {a : Address} {w : Wire} (hw : toWire h (.object a) = .ok w) : ∃ items, w = .array items := by
  unfold toWire at hw
  generalize h.objects.size = depth at hw
  by_cases harray : h.isArray a = true
  · cases depth with
    | zero =>
      rw [wire, if_pos harray] at hw
      cases hw
    | succ depth =>
      rw [wire, if_pos harray] at hw
      generalize (items h a).mapM (wire h depth) = read at hw
      rcases read with _ | e | ws
      · cases hw
      · cases hw
      · exact ⟨ws, (Except.ok.inj hw).symm⟩
  · have hthrow : (wire h depth (.object a)).run = some (.error (.unsupported (typeName h (.object a)))) := by
      cases depth <;> rw [wire, if_neg harray] <;> rfl
    rw [hthrow] at hw
    cases hw

end Embedded

/-- What the registration of a value answers, and the heap that it leaves. A string that reads as a token passes for the
token of an object. -/
inductive Script.Memory.Registers (m : Memory) (h : Heap) : Value → Except BridgeError (Option Handle) → Heap → Prop
  | nothing {x : Value} (hx : x.isNullish = true) : Registers m h x (.ok none) h
  | bool (b : Bool) : Registers m h (.bool b) (.error (.conversion (.shapeMismatch "reference" "bool"))) h
  | number (n : Number) : Registers m h (.number n) (.error (.conversion (.shapeMismatch "reference" "number"))) h
  | text {t : String} (ht : Handle.ofToken? t = none) :
      Registers m h (.string (.text t)) (.error (.conversion (.shapeMismatch "reference" "string"))) h
  | token {t : String} {handle : Handle} (ht : Handle.ofToken? t = some handle) :
      Registers m h (.string (.text t)) (.ok (some handle)) h
  | unreadable {x : Value} {fault : EngineError} (hx : (∃ us, x = .string (.broken us)) ∨ ∃ d, x = .symbol d) :
      Registers m h x (.error (.engine fault)) h
  | object {a : Address} {handle : Handle} {h' : Heap} (hplain : h.Plain a)
      (hslot : (m.held h')[handle.index]? = some (.object a)) (hlonger : m.held h <+: m.held h') :
      Registers m h (.object a) (.ok (some handle)) h'
  | array {a : Address} {e : BridgeError} {h' : Heap} (harray : h.isArray a = true)
      (he : e = .conversion (.shapeMismatch "reference" "array") ∨ ∃ fault, e = .engine fault)
      (hlonger : m.held h <+: m.held h') : Registers m h (.object a) (.error e) h'

namespace Script.Memory.Reached

variable {m : Memory} {h : Heap} {f : Address} {met : Address → Prop}

private theorem outcome_invoke_convert (hcode : h.code? f = some (.tool .convert m)) (x : Value) :
    ∃ inner fuel, Run.Within 2 inner ∧ outcome (Run.invoke (.object f) .undefined [x]) h =
      outcome (Converter.convert inner m (fuel + 1) x) h := by
  obtain ⟨inner, hinner, hrun⟩ := Converter.outcome_invoke hcode .undefined [x]
  obtain ⟨fuel, hfuel⟩ := Nat.exists_eq_add_one.2 (Converter.fuelFor_pos h)
  rw [hfuel] at hrun
  exact ⟨inner, fuel, hinner, hrun⟩

/-- A value that the converter leaves alone crosses the boundary as it is. -/
private theorem conversion_kept (hreached : m.Reached h) (hcode : h.code? f = some (.tool .convert m)) {x : Value}
    (hx : x.isNullish = false) (hobject : ∀ a, x ≠ .object a) : conversion f x h = ⟨toWire h x, h, []⟩ := by
  obtain ⟨-, slots, horderly⟩ := hreached.orderly
  obtain ⟨inner, fuel, hinner, hrun⟩ := outcome_invoke_convert hcode x
  exact Embedded.conversion_of_ok
    (hrun.trans (Converter.outcome_convert_kept (hinner.mono (by decide)) horderly.foundations.library hx hobject fuel))

private theorem conversion_nullish (hcode : h.code? f = some (.tool .convert m)) {x : Value} (hx : x.isNullish = true) :
    conversion f x h = ⟨.ok .null, h, []⟩ := by
  obtain ⟨inner, fuel, -, hrun⟩ := outcome_invoke_convert hcode x
  have hconvert : outcome (Converter.convert inner m (fuel + 1) x) h = (.ok .null, h) := by
    cases x <;> first | rfl | cases hx
  have hwire : toWire h .null = .ok .null := by
    unfold toWire
    cases h.objects.size <;> rfl
  rw [Embedded.conversion_of_ok (hrun.trans hconvert), hwire]

/-- Primitive values are registered as nothing, and leave the heap as it is. -/
private theorem registers_primitive (hreached : m.Reached h) (hcode : h.code? f = some (.tool .convert m)) {x : Value}
    (hobject : ∀ a, x ≠ .object a) : m.Registers h x (conversion f x h).registered (conversion f x h).state := by
  by_cases hx : x.isNullish = true
  · rw [conversion_nullish hcode hx]
    exact .nothing hx
  · rw [conversion_kept hreached hcode (by simpa using hx) hobject]
    cases x with
    | undefined => exact absurd rfl hx
    | null => exact absurd rfl hx
    | object a => exact absurd rfl (hobject a)
    | bool b =>
      unfold toWire
      cases h.objects.size <;> exact .bool b
    | number n =>
      unfold toWire
      cases h.objects.size <;> exact .number n
    | symbol d =>
      unfold toWire
      cases h.objects.size <;> exact .unreadable (.inr ⟨d, rfl⟩)
    | string c =>
      cases c with
      | broken us =>
        unfold toWire
        cases h.objects.size <;> exact .unreadable (.inl ⟨us, rfl⟩)
      | text t =>
        rw [Embedded.toWire_text]
        change m.Registers h _ (Wire.registered (.text t)) h
        rw [Wire.registered_text]
        cases ht : Handle.ofToken? t with
        | none => exact .text ht
        | some a => exact .token ht

/-- An object gets the handle of a slot that holds it. -/
private theorem registers_object (hreached : m.Reached h) (hcode : h.code? f = some (.tool .convert m)) {a : Address}
    (hplain : h.Plain a) (hroom : h.objects.size + 1 < Key.indexBound) :
    m.Registers h (.object a) (conversion f (.object a) h).registered (conversion f (.object a) h).state := by
  obtain ⟨hscheme, slots, horderly⟩ := hreached.orderly
  have hlength := horderly.length_enlist_lt horderly.made hroom a
  obtain ⟨inner, fuel, hinner, hrun⟩ := outcome_invoke_convert hcode (.object a)
  obtain ⟨n, h', htoken, hslot, horderly', -⟩ := Converter.outcome_token_enlist hinner horderly hplain hlength
  have hindex := index_handleIn horderly'.distinct hlength hslot
  have htext : m.scheme ++ String.ofList (Text.decimal n) = (handleIn (enlist slots a) a).token := by
    rw [Handle.token, Handle.numeralText, hindex, hscheme, String.ofList_append]
  have hconvert := Converter.outcome_convert_object (m := m) (hinner.mono (by decide)) horderly.foundations.library
    hplain.array fuel
  rw [htoken, htext] at hconvert
  have hconversion : conversion f (.object a) h =
      ⟨toWire h' (.string (.text (handleIn (enlist slots a) a).token)), h', []⟩ :=
    Embedded.conversion_of_ok (hrun.trans hconvert)
  have hanswer : (conversion f (.object a) h).registered = .ok (some (handleIn (enlist slots a) a)) := by
    rw [hconversion, Embedded.toWire_text]
    change Wire.registered (.text _) = _
    rw [Wire.registered_text, Handle.ofToken?_token]
  rw [hanswer, hconversion]
  refine .object hplain ?_ ?_
  · rw [horderly'.held_eq, hindex, hslot]
  · rw [horderly.held_eq, horderly'.held_eq]
    exact prefix_enlist slots a

/-- An array gets no handle, though the objects in it may get slots. -/
private theorem registers_array (hreached : m.Reached h) (hcode : h.code? f = some (.tool .convert m))
    (hclosed : h.Closed met) {a : Address} (ha : met a) (harray : h.isArray a = true)
    (hroom : h.objects.size + 1 < Key.indexBound) :
    m.Registers h (.object a) (conversion f (.object a) h).registered (conversion f (.object a) h).state := by
  obtain ⟨-, slots, horderly⟩ := hreached.orderly
  obtain ⟨inner, fuel, hinner, hrun⟩ := outcome_invoke_convert hcode (.object a)
  obtain ⟨vs, hlist, -⟩ := hclosed.items a ha harray
  have hlonger : m.held h <+: m.held (conversion f (.object a) h).state := by
    rw [Embedded.conversion_state]
    refine hreached.held_prefix hcode hclosed (fun b hb => ?_) hroom .undefined
    obtain rfl := Value.object.inj hb
    exact ha
  have hconvert := Converter.outcome_convert_array (m := m) (hinner.mono (by decide)) horderly.foundations.library harray
    hlist.get_length hlist.bound fuel
  have hinvoke := hrun.trans hconvert
  rw [outcome_bind] at hinvoke
  obtain ⟨e, he, hkind⟩ : ∃ e, (conversion f (.object a) h).registered = .error e ∧
      (e = .conversion (.shapeMismatch "reference" "array") ∨ ∃ fault, e = .engine fault) := by
    generalize outcome (Converter.convertFrom inner m (.object a) (.object h.objects.size) fuel 0) _ = filled at hinvoke
    rcases filled with ⟨t | u, h'⟩
    · rw [Embedded.conversion_of_error hinvoke]
      exact ⟨_, rfl, .inr ⟨_, rfl⟩⟩
    · rw [Embedded.conversion_of_ok hinvoke]
      rcases hwire : toWire h' (.object h.objects.size) with fault | w
      · exact ⟨_, rfl, .inr ⟨fault, rfl⟩⟩
      · obtain ⟨items, rfl⟩ := Embedded.toWire_object hwire
        exact ⟨_, rfl, .inl rfl⟩
  rw [he]
  exact .array harray hkind hlonger

/-- The registration of a value in a table that is reached, if no proxies are reached from the value. -/
theorem registers (hreached : m.Reached h) (hcode : h.code? f = some (.tool .convert m)) (hclosed : h.Closed met)
    {x : Value} (hgiven : ∀ a, x = .object a → met a) (hroom : h.objects.size + 1 < Key.indexBound) :
    m.Registers h x (conversion f x h).registered (conversion f x h).state := by
  by_cases hobject : ∃ a, x = .object a
  · obtain ⟨a, rfl⟩ := hobject
    have ha := hgiven a rfl
    cases harray : h.isArray a with
    | true => exact registers_array hreached hcode hclosed ha harray hroom
    | false => exact registers_object hreached hcode ⟨hclosed.made a ha, hclosed.proxy a ha, harray⟩ hroom
  · exact registers_primitive hreached hcode fun a heq => hobject ⟨a, heq⟩

end Script.Memory.Reached

namespace Script.Memory.Registers

variable {m : Memory} {h h' : Heap} {x : Value} {handle : Handle}

/-- A handle is that of an object in its slot, or the number that a string spells. -/
theorem of_handle (hregisters : m.Registers h x (.ok (some handle)) h') :
    (∃ a, x = .object a ∧ h.Plain a ∧ (m.held h')[handle.index]? = some (.object a)) ∨
      h' = h ∧ ∃ t, x = .string (.text t) ∧ Handle.ofToken? t = some handle := by
  cases hregisters with
  | token ht => exact .inr ⟨rfl, _, rfl, ht⟩
  | object hplain hslot _ => exact .inl ⟨_, rfl, hplain, hslot⟩

/-- Whatever is no object leaves the heap as it is. -/
theorem heap_eq {answer : Except BridgeError (Option Handle)} (hregisters : m.Registers h x answer h')
    (hobject : ∀ a, x ≠ .object a) : h' = h := by
  cases hregisters with
  | object => exact absurd rfl (hobject _)
  | array => exact absurd rfl (hobject _)
  | _ => rfl

end Script.Memory.Registers

namespace Session

/-- The registration of an expression answers by the kind of the value in front of its first outermost comma. A handle
is given for an object that its slot holds, and for a string that reads as a token. -/
theorem register_answers (d : Desk Heap) {m : Memory} {f : Address} {statement : String}
    (hvalid : d.session.config.validate = .ok ()) (hconverter : IsVariable d.session.config.converterName)
    (hgeneration : d.session.generation ≠ 0)
    (hf : d.state.Holds Heap.global (.ofText d.session.config.converterName) (.object f))
    (hstatement : IsExpression statement.toList) (hnull : NullFree statement.toList) :
    ∃ e es, Parser.expression? statement.toList = .ok (joined e es) ∧
      ∀ x h, outcome ((joined e es).evaluate .body) d.state = (.ok x, h) → m.Reached h →
        h.code? f = some (.tool .convert m) → h.objects.size + 1 < Key.indexBound →
        ∃ v vs, outcome (Expr.evaluateAll .body [] (e :: es)) d.state = (.ok (v :: vs), h) ∧ (es = [] → v = x) ∧
          ∀ met, h.Closed met → (∀ a, v = .object a → met a) → ∃ answer d', d'.session = d.session ∧
            outcome (register engine statement) d = (answer, d') ∧ m.Registers h v answer d'.state ∧
            (∀ handle, answer = .ok (some handle) →
              (∃ a, v = .object a ∧ h.Plain a ∧ (m.held d'.state)[handle.index]? = some (.object a)) ∨
              d'.state = h ∧ ∃ t, v = .string (.text t) ∧ Handle.ofToken? t = some handle) ∧
            ((∀ a, v ≠ .object a) → d'.state = h) := by
  obtain ⟨e, es, hread, hcaptures⟩ :=
    captures_first_value d hvalid hconverter hgeneration hf hstatement hnull
  refine ⟨e, es, hread, fun x h hx hreached hcode hroom => ?_⟩
  obtain ⟨v, vs, hall, -, hsingle, d', hsession, hstate, hregister, -⟩ := hcaptures x h hx hcode
  refine ⟨v, vs, hall, hsingle, fun met hclosed hgiven => ⟨_, d', hsession, hregister, ?_⟩⟩
  have hregisters := hreached.registers hcode hclosed hgiven hroom
  rw [← hstate] at hregisters
  refine ⟨hregisters, fun handle hhandle => ?_, hregisters.heap_eq⟩
  rw [hhandle] at hregisters
  exact hregisters.of_handle

end Session

-- A string of a page passes for the token of an object, whatever slots there are.
example : Wire.registered (.text "nsiId=7") = .ok (some ⟨7⟩) ∧
    Wire.registered (.text "nsiId=") = .error (.conversion (.shapeMismatch "reference" "string")) :=
  ⟨rfl, rfl⟩

end ScriptBridge
