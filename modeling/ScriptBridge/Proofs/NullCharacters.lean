import ScriptBridge.Proofs.CallStatements
import ScriptBridge.Proofs.Courses

/-! Null characters in calls. The engine takes no script with a null character in it, and escaping lets that character
stand. So a call is refused before it is run exactly when one of the texts in its arguments, however deep, has a null
character; nothing else that a call is rendered from can bring one in. -/
namespace ScriptBridge

namespace NullFree

variable {as bs : List Char} {c : Char}

theorem append_iff : NullFree (as ++ bs) ↔ NullFree as ∧ NullFree bs :=
  ⟨fun h => ⟨fun c hc => h c (List.mem_append_left bs hc), fun c hc => h c (List.mem_append_right as hc)⟩,
    fun h => h.1.append h.2⟩

theorem cons_iff : NullFree (c :: as) ↔ c.toNat ≠ 0 ∧ NullFree as :=
  ⟨fun h => ⟨h c List.mem_cons_self, fun d hd => h d (List.mem_cons_of_mem c hd)⟩, fun h => .cons h.1 h.2⟩

/-- Escaping lets null characters stand. -/
theorem of_escape {text : List Char} (h : NullFree (Text.escape text)) : NullFree text := by
  intro c hc hzero
  obtain rfl : c = Char.ofNat 0 := by rw [← hzero, Char.ofNat_toNat]
  have hmem : Char.ofNat 0 ∈ Text.escape text := by
    rw [Text.escape_eq_flatMap]
    refine List.mem_flatMap.2 ⟨Char.ofNat 0, hc, ?_⟩
    rw [← StringLiteral.ofChar_text]
    decide
  exact h _ hmem rfl

theorem of_separated {texts : List (List Char)} (h : NullFree (Expression.separated texts)) :
    ∀ t ∈ texts, NullFree t := by
  induction texts with
  | nil => exact nofun
  | cons t rest ih =>
    cases rest with
    | nil =>
      intro u hu
      obtain rfl := List.mem_singleton.1 hu
      exact h
    | cons u rest =>
      obtain ⟨ht, hrest⟩ := append_iff.1 h
      exact List.forall_mem_cons.2 ⟨ht, ih (cons_iff.1 hrest).2⟩

variable {table : String} {owner : Option Session}

mutual
/-- A null character in a text of a value is one in the rendered value. -/
theorem strings_of_argument : (v : Native) → NullFree (Expression.argument table owner v) →
    ∀ t ∈ v.strings, NullFree t.toList
  | .text s, h => by
    rw [Expression.argument, Expression.quoted] at h
    intro t ht
    obtain rfl := List.mem_singleton.1 ht
    exact of_escape (append_iff.1 (cons_iff.1 h).2).1
  | .array items, h => by
    rw [Expression.argument] at h
    exact strings_of_arguments items (of_separated (append_iff.1 (cons_iff.1 h).2).1)
  | .null, _ | .bool _, _ | .int _, _ | .long _, _ | .double _, _ | .ref _, _ | .foreign _, _ => nofun

theorem strings_of_arguments : (vs : List Native) → (∀ t ∈ Expression.arguments table owner vs, NullFree t) →
    ∀ t ∈ Native.itemStrings vs, NullFree t.toList
  | [], _ => nofun
  | v :: rest, h => by
    rw [Expression.arguments] at h
    obtain ⟨hv, hrest⟩ := List.forall_mem_cons.1 h
    intro t ht
    rcases List.mem_append.1 ht with ht | ht
    · exact strings_of_argument v hv t ht
    · exact strings_of_arguments rest hrest t ht
end

theorem reference (htable : isIdentifier table.toList = true) (h : Handle) : NullFree (Expression.reference table h) := by
  have hindex : NullFree h.numeralText := of_digits fun _ => Text.isDigit_of_mem_decimal
  exact ((of_identifier htable).append (.cons (by decide) hindex)).append (.cons (by decide) nil)

/-- A rendered call has a null character exactly where a text of its arguments has one. -/
theorem call_iff (htable : isIdentifier table.toList = true) (h : Handle) {member : String}
    (hmember : NullFree member.toList) (args : List Native) :
    NullFree (Expression.call table owner h member args) ↔ ∀ t ∈ Native.itemStrings args, NullFree t.toList := by
  rcases Native.call_cases table owner h member args with ⟨property, hproperty, rfl, htext, -⟩ | ⟨htext, -⟩ <;> rw [htext]
  · have hread := Probe.nullFree_property hproperty hmember
    exact ⟨fun _ => nofun, fun _ => (reference htable h).append (.cons (by decide) hread)⟩
  · constructor
    · intro hcall
      have hlist := (cons_iff.1 (append_iff.1 (cons_iff.1 (append_iff.1 hcall).2).2).2).2
      exact strings_of_arguments args (of_separated (append_iff.1 hlist).1)
    · intro hstrings
      have hlist : NullFree (Expression.separated (Expression.arguments table owner args)) :=
        separated (arguments htable args hstrings)
      have hopen : NullFree ('(' :: (Expression.separated (Expression.arguments table owner args) ++ [')'])) :=
        .cons (by decide) (hlist.append (.cons (by decide) nil))
      exact (reference htable h).append (.cons (by decide) (hmember.append hopen))

end NullFree

/-- The text that a request hands to the engine's language. -/
def Request.source : Request → List Char
  | .evaluate script => Embedded.wrap script.toList
  | .execute script => script.toList

namespace Embedded

open Script (Heap)

theorem nullAt?_eq_none_iff {text : List Char} : nullAt? text = none ↔ NullFree text := by
  refine ⟨fun h => ?_, NullFree.nullAt?⟩
  induction text with
  | nil => exact .nil
  | cons c rest ih =>
    rw [nullAt?] at h
    split at h
    · cases h
    · exact .cons ‹_› (ih (Option.map_eq_none_iff.1 h))

/-- In front of a text the bytes of what has no null character are counted along. -/
theorem nullAt?_append {front : List Char} (hfront : NullFree front) (text : List Char) :
    nullAt? (front ++ text) = (nullAt? text).map ((front.map Char.utf8Size).sum + ·) := by
  induction front with
  | nil => simp
  | cons c front ih =>
    obtain ⟨hc, hfront⟩ := NullFree.cons_iff.1 hfront
    rw [List.cons_append, nullAt?, if_neg hc, ih hfront, Option.map_map]
    simp [Function.comp_def, Nat.add_assoc]

/-- What has no null character counts for nothing behind a text. -/
theorem nullAt?_append_right {back : List Char} (hback : NullFree back) (text : List Char) :
    nullAt? (text ++ back) = nullAt? text := by
  induction text with
  | nil => exact hback.nullAt?
  | cons c text ih => rw [List.cons_append, nullAt?, nullAt?, ih]

/-- As the body of a function a text has its null character fifteen bytes later. -/
theorem nullAt?_wrap (text : List Char) : nullAt? (wrap text) = (nullAt? text).map (15 + ·) := by
  have hfront : NullFree "(function () \x7b\n".toList := .of_all (by decide)
  have hback : NullFree "\n\x7d)()".toList := .of_all (by decide)
  have hbytes : ("(function () \x7b\n".toList.map Char.utf8Size).sum = 15 := by decide +kernel
  have hshown : wrap text = "(function () \x7b\n".toList ++ (text ++ "\n\x7d)()".toList) := List.append_assoc ..
  rw [hshown, nullAt?_append hfront, hbytes, nullAt?_append_right hback]

/-- A text with a null character is refused where that character stands, and nothing is run. -/
theorem reply_of_nullAt? {q : Request} {n : Nat} (hn : nullAt? q.source = some n) (h : Heap) :
    engine.reply h q = ⟨.error (nullFault n), h, []⟩ := by
  cases q with
  | evaluate script =>
    have hrefused : engine.evaluate script h = ⟨.error (nullFault n), h, []⟩ := by
      change launch (wrap script.toList) _ _ _ h = _
      rw [launch.eq_def, show nullAt? (wrap script.toList) = some n from hn]
    rw [Engine.reply, hrefused]
    rfl
  | execute script =>
    have hrefused : engine.execute script h = ⟨.error (nullFault n), h, []⟩ := by
      change launch script.toList _ _ _ h = _
      rw [launch.eq_def, show nullAt? script.toList = some n from hn]
    rw [Engine.reply, hrefused]
    rfl

end Embedded

namespace Dispatch

open Embedded (engine nullAt? nullFault)

/-- The request of a statement has a null character exactly where the statement has one. -/
theorem request_source_iff {s : Session} (hsound : s.config.Sound) (statement : String) (shape : Shape) :
    NullFree (request s statement shape).source ↔ NullFree statement.toList := by
  have hwrap (text : List Char) : NullFree (Embedded.wrap text) ↔ NullFree text := by
    rw [← Embedded.nullAt?_eq_none_iff, Embedded.nullAt?_wrap, Option.map_eq_none_iff, Embedded.nullAt?_eq_none_iff]
  have hend : NullFree (statement ++ ";").toList ↔ NullFree statement.toList := by
    have hmark : NullFree ";".toList := .of_all (by decide)
    rw [String.toList_append, NullFree.append_iff, and_iff_left hmark]
  have hcapture : NullFree (s.captureScript statement).toList ↔ NullFree statement.toList := by
    refine ⟨fun h => ?_, NullFree.captureScript hsound.converter⟩
    simp only [Session.captureScript, String.toList_append, NullFree.append_iff] at h
    exact h.1.2
  unfold request
  split
  · split
    · exact hend
    · exact (hwrap _).trans hend
  · exact (hwrap _).trans hcapture

/-- The engine takes the text of a call exactly when no text in the arguments has a null character. Otherwise the call
fails with the place of the first one, and is not run. -/
theorem taken_iff_strings_nullFree (d : Desk Script.Heap) (hvalid : d.session.config.validate = .ok ())
    {target : Reference} (hcheck : d.session.check target = .ok ()) {member : String} {args : List Native}
    (hid : identity? target member args = none) (hmember : NullFree member.toList) (shape : Shape) :
    let source := (request d.session (d.session.call target.handle member args) shape).source
    (nullAt? source = none ↔ ∀ t ∈ Native.itemStrings args, NullFree t.toList) ∧
      ∀ n, nullAt? source = some n →
        (outcome (dispatch engine target member args shape) d).1 = .error (.engine (nullFault n)) ∧
        (outcome (dispatch engine target member args shape) d).2.state = d.state := by
  intro source
  have hsound := Config.sound_of_validate hvalid
  let q := request d.session (d.session.call target.handle member args) shape
  have hsends : Sends d.session target member args shape q := ⟨hid, hcheck, rfl⟩
  refine ⟨?_, fun n hn => ?_⟩
  · rw [Embedded.nullAt?_eq_none_iff, request_source_iff hsound, Session.call, String.toList_ofList,
      NullFree.call_iff hsound.table target.handle hmember]
  · have hreply : engine.reply d.state q = ⟨.error (nullFault n), d.state, []⟩ := Embedded.reply_of_nullAt? hn d.state
    rw [dispatch_outcome hsends, hreply]
    exact ⟨rfl, congrArg Reply.state hreply⟩

end Dispatch
end ScriptBridge
