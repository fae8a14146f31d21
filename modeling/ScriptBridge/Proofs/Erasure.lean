import ScriptBridge.Proofs.Courses
import ScriptBridge.Proofs.RenderedCalls

/-! Erasure of references. What a session renders is what would be rendered for everyone, once null stands in the place
of each reference that is not of the session's current table. The erased value has the places of the first one, and no
slot can get into a statement by another way. -/
namespace ScriptBridge

open Grammar (Call Element)
open Script (IsWord)

/-- The reference is of the table that the session has at present. -/
def Reference.Current (r : Reference) (s : Session) : Prop :=
  r.session = s.id ∧ s.generation ≠ 0 ∧ r.generation = s.generation

instance (r : Reference) (s : Session) : Decidable (r.Current s) := inferInstanceAs (Decidable (_ ∧ _ ∧ _))

namespace Native

mutual
/-- A value with null for each reference that is not current, and for what no script has. -/
def erased (s : Session) : Native → Native
  | .ref r => if r.Current s then .ref r else .null
  | .foreign _ => .null
  | .array items => .array (erasedItems s items)
  | v => v

def erasedItems (s : Session) : List Native → List Native
  | [] => []
  | v :: rest => v.erased s :: erasedItems s rest
end

/-- The references in a value that are not current, in order. -/
def lost (s : Session) (v : Native) : List Reference := v.references.filter fun r => ¬ r.Current s

/-- The references in a value that are current, in order. -/
def kept (s : Session) (v : Native) : List Reference := v.references.filter fun r => r.Current s

variable (s : Session)

theorem getElem?_erasedItems (vs : List Native) (i : Nat) : (erasedItems s vs)[i]? = vs[i]?.map (erased s) := by
  induction vs generalizing i with
  | nil => rfl
  | cons v rest ih =>
    cases i with
    | zero => rfl
    | succ i => exact ih i

/-- At every place stands what is left of the value there. -/
theorem at?_erased (v : Native) (p : Place) : (v.erased s).at? p = (v.at? p).map (erased s) := by
  induction p generalizing v with
  | nil => rw [at?, at?, Option.map_some]
  | cons i p ih =>
    cases v with
    | array items =>
      rw [erased, at?, at?, getElem?_erasedItems]
      cases items[i]? with
      | none => rfl
      | some u => exact ih u
    | ref r =>
      rw [erased]
      split <;> rfl
    | _ => rfl

mutual
theorem references_erased : (v : Native) → (v.erased s).references = v.kept s
  | .ref r => by
    rw [erased, kept, references]
    by_cases hr : r.Current s <;> simp [hr, references]
  | .array items => by rw [erased, references, kept, references, referencesOfItems_erased items]
  | .null | .bool _ | .int _ | .long _ | .double _ | .text _ | .foreign _ => rfl

theorem referencesOfItems_erased : (vs : List Native) →
    referencesOfItems (erasedItems s vs) = (referencesOfItems vs).filter fun r => r.Current s
  | [] => rfl
  | v :: rest => by
    rw [erasedItems, referencesOfItems, referencesOfItems, references_erased v, referencesOfItems_erased rest,
      List.filter_append, kept]
end

end Native

namespace Expression

variable (s : Session)

theorem nameable_eq (r : Reference) : nameable (some s) r = decide (r.Current s) :=
  Bool.eq_iff_iff.2 ((s.owns_iff r).trans decide_eq_true_iff.symm)

mutual
/-- A value is rendered for a session as the erased one is for everyone. -/
theorem argument_erased (table : String) : (v : Native) → argument table none (v.erased s) = argument table (some s) v
  | .ref r => by
    rw [Native.erased, argument, nameable_eq]
    by_cases hr : r.Current s <;> simp [hr, argument, nameable]
  | .array items => by rw [Native.erased, argument, argument, arguments_erased table items]
  | .null | .bool _ | .int _ | .long _ | .double _ | .text _ | .foreign _ => rfl

theorem arguments_erased (table : String) : (vs : List Native) →
    arguments table none (Native.erasedItems s vs) = arguments table (some s) vs
  | [] => rfl
  | v :: rest => by rw [Native.erasedItems, arguments, arguments, argument_erased table v, arguments_erased table rest]
end

/-- A call is rendered for a session as with the erased arguments for everyone. -/
theorem call_erased (table : String) (h : Handle) (member : String) (args : List Native) :
    call table none h member (Native.erasedItems s args) = call table (some s) h member args := by
  have hargs := arguments_erased s table args
  cases args with
  | nil => rfl
  | cons v rest =>
    unfold call
    rw [hargs]
    cases propertyName? member <;> rfl

/-- An event that is a warning of the expression builder. -/
def isWarning (e : Event) : Bool := e.topic = .expr ∧ e.level = .warn

mutual
/-- There is one warning for each reference that is lost. -/
theorem remarks_warnings : (v : Native) →
    (remarks (some s) v).filter isWarning = (v.lost s).map fun r => .unusableReference r.handle
  | .ref r => by
    rw [remarks, nameable_eq, Native.lost, Native.references]
    by_cases hr : r.Current s <;> simp [hr, isWarning, Event.topic, Event.level]
  | .array items => remarksOfAll_warnings items
  | .null | .bool _ | .int _ | .long _ | .double _ | .text _ | .foreign _ => rfl

theorem remarksOfAll_warnings : (vs : List Native) → (remarksOfAll (some s) vs).filter isWarning =
    ((Native.array vs).lost s).map fun r => .unusableReference r.handle
  | [] => rfl
  | v :: rest => by
    have hv := remarks_warnings v
    have hrest := remarksOfAll_warnings rest
    rw [Native.lost, Native.references] at hrest ⊢
    rw [remarksOfAll, List.filter_append, hv, hrest, Native.referencesOfItems, List.filter_append, List.map_append,
      Native.lost]
end

mutual
/-- There is nothing to remark on an erased value. -/
theorem remarks_erased : (v : Native) → remarks none (v.erased s) = []
  | .ref r => by
    rw [Native.erased]
    split <;> rfl
  | .array items => remarksOfAll_erased items
  | .null | .bool _ | .int _ | .long _ | .double _ | .text _ | .foreign _ => rfl

theorem remarksOfAll_erased : (vs : List Native) → remarksOfAll none (Native.erasedItems s vs) = []
  | [] => rfl
  | v :: rest => by
    rw [Native.erasedItems, remarksOfAll, remarks_erased v, remarksOfAll_erased rest, List.append_nil]
end

end Expression

/-! The slots in a statement. -/

namespace Grammar

mutual
/-- The slots that an element names, in order. -/
def Element.slots : Element → List Nat
  | .slot index => [Text.numeral index]
  | .list items => slotsOfItems items
  | _ => []

def Element.slotsOfItems : List Element → List Nat
  | [] => []
  | e :: rest => e.slots ++ slotsOfItems rest
end

/-- The slots that a call names: the one whose member is called, and those in the arguments. -/
def Call.slots (c : Call) : List Nat := Text.numeral c.index :: c.arguments.elim [] Element.slotsOfItems

theorem Element.slots_ofDouble (x : Double) : (ofDouble x).slots = [] := by
  unfold ofDouble
  split_ifs <;> rfl

mutual
theorem Element.slots_ofNative (s : Session) : (v : Native) →
    (ofNative (some s) v).slots = (v.kept s).map fun r => r.handle.index
  | .ref r => by
    rw [ofNative, Expression.nameable_eq, Native.kept, Native.references]
    by_cases hr : r.Current s
    · simpa [hr, slots, Handle.numeralText] using Text.numeral_decimal r.handle.index
    · simp [hr, slots]
  | .array items => slotsOfItems_ofNatives s items
  | .int n => Element.slots_ofDouble _
  | .long n => slots_ofDouble _
  | .double x => slots_ofDouble x
  | .null | .bool _ | .text _ | .foreign _ => rfl

theorem Element.slotsOfItems_ofNatives (s : Session) : (vs : List Native) →
    slotsOfItems (ofNatives (some s) vs) = ((Native.array vs).kept s).map fun r => r.handle.index
  | [] => rfl
  | v :: rest => by
    have hrest := Element.slotsOfItems_ofNatives s rest
    rw [Native.kept, Native.references] at hrest ⊢
    rw [ofNatives, slotsOfItems, Element.slots_ofNative s v, hrest, Native.referencesOfItems, List.filter_append,
      List.map_append, Native.kept]
end

theorem Call.slots_ofCall (s : Session) (h : Handle) (member : String) (args : List Native) :
    (ofCall (some s) h member args).slots = h.index :: ((Native.array args).kept s).map fun r => r.handle.index := by
  have hindex : Text.numeral h.numeralText = h.index := Text.numeral_decimal _
  unfold ofCall
  split
  · exact congrArg (· :: []) hindex
  · exact congrArg₂ (· :: ·) hindex (Element.slotsOfItems_ofNatives s _)

end Grammar

namespace Dispatch

variable {σ : Type} {E : Engine σ} {d : Desk σ} {target : Reference} {member : String} {args : List Native}
  {shape : Shape} {q : Request}

theorem opening_warnings (s : Session) (target : Reference) (member : String) (args : List Native) :
    (opening s target member args).filter Expression.isWarning =
      ((Native.array args).lost s).map fun r => .unusableReference r.handle := by
  have hremarks := Expression.remarksOfAll_warnings s args
  have hphase (p : Phase) : Expression.isWarning (.phase p member target.handle) = false := rfl
  have hstatement (text : String) : Expression.isWarning (.statement text) = false := rfl
  simp [opening, hphase, hstatement, hremarks]

/-- The events in front of a request are those with which the call opens. -/
theorem dispatch_trail (hsends : Sends d.session target member args shape q) : ∃ rest,
    (outcome (dispatch E target member args shape) d).2.trail =
      d.trail ++ (opening d.session target member args).map .event ++ .request q :: rest := by
  let p : Passage := ⟨opening d.session target member args, some q, []⟩
  obtain ⟨c, es, r, hclose, -, -⟩ := close_goes (E := E) (t := p.leave E d) hsends rfl
  refine ⟨(E.reply d.state q).events.map .event ++ es.map .event, ?_⟩
  rw [dispatch_outcome hsends, hclose]
  simp [p, Passage.leave]

/-- A call asks the engine for nothing, or it is let through. -/
theorem silent_or_sends (E : Engine σ) (d : Desk σ) (target : Reference) (member : String) (args : List Native)
    (shape : Shape) : (outcome (dispatch E target member args shape) d).2.requests = d.requests ∨
      ∃ q, Sends d.session target member args shape q ∧
        (outcome (dispatch E target member args shape) d).2.requests = d.requests ++ [q] := by
  obtain ⟨c, p, r, hrun, hgoes, -⟩ := dispatch_goes E d target member args shape
  rw [hrun]
  change (p.leave E d).requests = _ ∨ ∃ q, _ ∧ (p.leave E d).requests = _
  rw [p.leave_requests]
  generalize p.request = sent at hgoes
  cases hgoes with
  | identified => exact .inl (List.append_nil _)
  | refused => exact .inl (List.append_nil _)
  | failed hsends => exact .inr ⟨_, hsends, rfl⟩
  | unconverted hsends => exact .inr ⟨_, hsends, rfl⟩
  | converted hsends => exact .inr ⟨_, hsends, rfl⟩
  | finished hsends => exact .inr ⟨_, hsends, rfl⟩

theorem Sends.current {s : Session} (h : Sends s target member args shape q) : target.Current s := by
  refine (s.owns_iff target).1 ?_
  rw [Session.owns, h.usable]

end Dispatch

open Dispatch (dispatch)

/-- A session renders a value as the erased value is rendered for everyone, warns of each reference that is lost, and
has nothing to remark on the rest. A call sends nothing, or one statement on a current target with the erased
arguments; the warnings stand in front of it, and it names the target's slot and those of the references kept. -/
theorem Session.rendering_erases (s : Session) :
    (∀ v : Native,
      s.argument v = String.ofList (Expression.argument s.config.tableName none (v.erased s)) ∧
      (∀ p, (v.erased s).at? p = (v.at? p).map (Native.erased s)) ∧
      (v.erased s).references = v.kept s ∧
      (Expression.remarks (some s) v).filter Expression.isWarning =
        (v.lost s).map (fun r => .unusableReference r.handle) ∧
      Expression.remarks none (v.erased s) = []) ∧
    ∀ {σ : Type} (E : Engine σ) (x : σ) (trail : List Mark) (target : Reference) (member : String) (args : List Native)
        (shape : Shape) (result : Except BridgeError Native) (d : Desk σ),
      outcome (dispatch E target member args shape) ⟨s, x, trail⟩ = (result, d) →
      d.requests = trail.filterMap Mark.request? ∨
      target.Current s ∧ ∃ (c : Call) (q : Request) (before : List Event) (rest : List Mark),
        d.requests = trail.filterMap Mark.request? ++ [q] ∧
        d.trail = trail ++ before.map .event ++ .request q :: rest ∧
        before.filter Expression.isWarning =
          ((Native.array args).lost s).map (fun r => .unusableReference r.handle) ∧
        q = Dispatch.request s (String.ofList (c.text s.config.tableName.toList)) shape ∧
        c.text s.config.tableName.toList =
          Expression.call s.config.tableName none target.handle member (Native.erasedItems s args) ∧
        c.slots = target.handle.index :: ((Native.array args).kept s).map (fun r => r.handle.index) ∧
        (IsWord s.config.tableName.toList → IsWord member.toList → c.WellFormed ∧ ∀ t : Call, t.WellFormed →
          t.text s.config.tableName.toList = c.text s.config.tableName.toList → t = c) := by
  refine ⟨fun v => ⟨?_, v.at?_erased s, v.references_erased s, Expression.remarks_warnings s v,
    Expression.remarks_erased s v⟩, fun E x trail target member args shape result d hrun => ?_⟩
  · rw [Expression.argument_erased, Session.argument]
  · have hd : d = (outcome (dispatch E target member args shape) ⟨s, x, trail⟩).2 := by rw [hrun]
    rw [hd]
    rcases Dispatch.silent_or_sends E ⟨s, x, trail⟩ target member args shape with hsilent | ⟨q, hsends, hrequests⟩
    · exact .inl hsilent
    · have htext : (Call.ofCall (some s) target.handle member args).text s.config.tableName.toList =
          Expression.call s.config.tableName (some s) target.handle member args := Call.ofCall_text _
      obtain ⟨rest, htrail⟩ := Dispatch.dispatch_trail (E := E) hsends
      refine .inr ⟨hsends.current, Call.ofCall (some s) target.handle member args, q, _, rest, hrequests, htrail,
        Dispatch.opening_warnings s target member args, ?_, ?_, Call.slots_ofCall s target.handle member args,
        fun htable hmember => ⟨Call.ofCall_wellFormed hmember, fun t ht h => ?_⟩⟩
      · rw [htext]
        exact hsends.request
      · rw [htext, Expression.call_erased]
      · exact Call.text_injective htable ht (Call.ofCall_wellFormed hmember) h

/-- Of a reference that is current, one of the generation before and one of another session, in an array of an array,
the first alone is named. -/
theorem Session.rendering_erases_nested : ∃ (s : Session) (args : List Native) (c : Call) (q : Request) (d : Desk Unit),
    args = [.array [.text "x", .array [.ref ⟨0, ⟨4⟩, "Node", 1⟩, .ref ⟨0, ⟨5⟩, "Node", 2⟩, .ref ⟨1, ⟨6⟩, "Node", 2⟩]],
      .foreign "File"] ∧
    outcome (dispatch (Engine.disconnected Unit) ⟨0, ⟨3⟩, "Node", 2⟩ "appendChild" args .void) ⟨s, (), []⟩ =
      (.error (.engine .disconnected), d) ∧
    d.requests = [q] ∧ c.WellFormed ∧ c.slots = [3, 5] ∧
    q = Dispatch.request s (String.ofList (c.text s.config.tableName.toList)) .void := by
  let s : Session := ⟨0, {}, 2⟩
  let args : List Native := [.array [.text "x",
    .array [.ref ⟨0, ⟨4⟩, "Node", 1⟩, .ref ⟨0, ⟨5⟩, "Node", 2⟩, .ref ⟨1, ⟨6⟩, "Node", 2⟩]], .foreign "File"]
  let d := (outcome (dispatch (Engine.disconnected Unit) ⟨0, ⟨3⟩, "Node", 2⟩ "appendChild" args .void) ⟨s, (), []⟩).2
  have hsent : d.requests = _ := Dispatch.dispatch_sent (d := ⟨s, (), []⟩) rfl rfl .void
  rcases (rendering_erases s).2 (Engine.disconnected Unit) () [] ⟨0, ⟨3⟩, "Node", 2⟩ "appendChild" args .void _ d rfl with
    hnone | ⟨-, c, q, -, -, hrequests, -, -, hq, -, hslots, hread⟩
  · rw [hsent] at hnone
    cases hnone
  · have htable : IsWord s.config.tableName.toList := Script.isWord_of_isIdentifier (by decide)
    have hmember : IsWord "appendChild".toList := Script.isWord_of_isIdentifier (by decide)
    exact ⟨s, args, c, q, d, rfl, rfl, hrequests, (hread htable hmember).1, hslots, hq⟩

end ScriptBridge
