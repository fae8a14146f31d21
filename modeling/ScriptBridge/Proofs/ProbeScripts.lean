import ScriptBridge.Probe
import ScriptBridge.Proofs.InstallScripts

/-! The scripts of probes, as the embedded engine reads and runs them. A probe names the slot by a variable of its own and
asks for one member after the other; each question stands in parentheses, and all of them are joined to the left. -/
namespace ScriptBridge

open Script
open Script.Token (Scans plain scans_mark scans_quoted)

namespace Probe

/-- The question whether the object has something under a name. -/
def presentExpr (name : String) : Expr := .isIn (.constant (.text name)) (.name "o")

def memberExpr (member : String) : Expr :=
  match propertyName? member with
  | some property => .either (presentExpr member) (presentExpr property)
  | none => presentExpr member

/-- The question whether there is an object at all. -/
def objectExpr : Expr :=
  .both (.both (.equals false (.name "o") (.constant .null)) (.equals false (.name "o") (.name "undefined")))
    (.either (.equals true (.typeOf (.name "o")) (.constant (.text "object")))
      (.equals true (.typeOf (.name "o")) (.constant (.text "function"))))

def condition (members : List String) : Expr :=
  members.foldl (fun e m => .both e (memberExpr m)) objectExpr

def presentTokens (name : String) : List TokenKind := [.string (.text name), .word "in", .word "o"]

def memberTokens (member : String) : List TokenKind :=
  match propertyName? member with
  | some property => .mark "(" :: presentTokens member ++ .mark "||" :: presentTokens property ++ [.mark ")"]
  | none => .mark "(" :: presentTokens member ++ [.mark ")"]

def objectTokens : List TokenKind :=
  [.word "o", .mark "!==", .word "null", .mark "&&", .word "o", .mark "!==", .word "undefined", .mark "&&",
    .mark "(", .word "typeof", .word "o", .mark "===", .string (.text "object"), .mark "||",
    .word "typeof", .word "o", .mark "===", .string (.text "function"), .mark ")"]

/-- The text of the question whether there is an object at all. -/
def objectText : List Char :=
  "o !== null && o !== undefined && (typeof o === 'object' || typeof o === 'function')".toList

def slotTokens (table : String) (x : Number) : List TokenKind := [.word table, .mark "[", .number x, .mark "]"]

def conditionTokens (members : List String) : List TokenKind :=
  objectTokens ++ members.flatMap fun m => .mark "&&" :: memberTokens m

end Probe

namespace Script.Parser

open Probe

/-- An operand of the conjunction is read up to the next one, or to the end. -/
theorem climb_member (member : String) (fuel : Nat) {m : String} (hm : m = "&&" ∨ m = ";") (rest : List Token) :
    climb (fuel + 20) 3 ((memberTokens member).map plain ++ plain (.mark m) :: rest) =
      .ok (memberExpr member, plain (.mark m) :: rest) := by
  unfold memberTokens memberExpr
  rcases hm with rfl | rfl <;> cases propertyName? member <;> rfl

theorem climb_object (fuel : Nat) {m : String} (hm : m = "&&" ∨ m = ";") (rest : List Token) :
    climb (fuel + 20) 1 (objectTokens.map plain ++ plain (.mark m) :: rest) =
      operators (fuel + 16) 1 objectExpr (plain (.mark m) :: rest) := by
  rcases hm with rfl | rfl <;> rfl

/-- The questions for the members, each with the mark that joins it. -/
def joinedTokens (members : List String) (rest : List Token) : List Token :=
  (members.flatMap fun m => .mark "&&" :: memberTokens m).map plain ++ plain (.mark ";") :: rest

theorem joinedTokens_front (members : List String) (rest : List Token) :
    ∃ m more, joinedTokens members rest = plain (.mark m) :: more ∧ (m = "&&" ∨ m = ";") := by
  cases members with
  | nil => exact ⟨";", rest, rfl, .inr rfl⟩
  | cons n members => exact ⟨"&&", _, rfl, .inl rfl⟩

theorem operators_joined (members : List String) (left : Expr) (rest : List Token) {fuel : Nat}
    (hfuel : members.length + 20 ≤ fuel) : operators (fuel + 1) 1 left (joinedTokens members rest) =
      .ok (members.foldl (fun e m => .both e (memberExpr m)) left, plain (.mark ";") :: rest) := by
  induction members generalizing left fuel with
  | nil => rfl
  | cons m members ih =>
    rw [List.length_cons] at hfuel
    obtain ⟨fuel, rfl⟩ : ∃ n, fuel = n + 20 := ⟨fuel - 20, by omega⟩
    obtain ⟨next, more, hmore, hnext⟩ := joinedTokens_front members rest
    have hjoined : joinedTokens (m :: members) rest =
        plain (.mark "&&") :: ((memberTokens m).map plain ++ joinedTokens members rest) := by
      simp [joinedTokens]
    have hstep (ts : List Token) : operators (fuel + 20 + 1) 1 left (plain (.mark "&&") :: ts) =
        climb (fuel + 20) 3 ts >>= fun r => operators (fuel + 20) 1 (.both left r.1) r.2 := rfl
    have hrest := ih (.both left (memberExpr m)) (show members.length + 20 ≤ fuel + 19 by omega)
    rw [hmore] at hrest
    rw [hjoined, hstep, hmore, climb_member m fuel hnext more]
    exact hrest

/-- The condition of a probe is read up to the end of its statement. -/
theorem expression_condition (members : List String) (rest : List Token) {fuel : Nat} (hfuel : members.length + 27 ≤ fuel) :
    expression fuel ((conditionTokens members).map plain ++ plain (.mark ";") :: rest) =
      .ok (condition members, plain (.mark ";") :: rest) := by
  obtain ⟨fuel, rfl⟩ : ∃ n, fuel = n + 22 := ⟨fuel - 22, by omega⟩
  obtain ⟨next, more, hmore, hnext⟩ := joinedTokens_front members rest
  have htokens : (conditionTokens members).map plain ++ plain (.mark ";") :: rest =
      objectTokens.map plain ++ joinedTokens members rest := by
    simp [conditionTokens, joinedTokens]
  have hclimb : climb (fuel + 20) 1 (objectTokens.map plain ++ joinedTokens members rest) =
      .ok (condition members, plain (.mark ";") :: rest) := by
    have hmembers := operators_joined members objectExpr rest (show members.length + 20 ≤ fuel + 15 by omega)
    rw [hmore] at hmembers ⊢
    exact (climb_object fuel hnext more).trans hmembers
  rw [htokens, expression, assignment, hclimb]
  rfl

/-- The slot is named by the variable of the probe. -/
theorem declaration_slot {table : String} (htable : table ∉ reserved) (x : Number) (rest : List Token) :
    declaration (plain (.word "o") :: plain (.mark "=") ::
        ((slotTokens table x).map plain ++ plain (.mark ";") :: rest)) =
      .ok (.declare "o" (some (.index (.name table) (.constant (.number x)))), rest) := by
  let behind := (slotTokens table x).map plain ++ plain (.mark ";") :: rest
  have hparses : Parses ((slotTokens table x).map plain) (.index (.name table) (.constant (.number x))) :=
    parses_slot htable x
  have hslot : assignment (fuelFor (plain (.mark "=") :: behind)) behind =
      .ok (.index (.name table) (.constant (.number x)), plain (.mark ";") :: rest) :=
    hparses _ _ (by simp only [fuelFor, behind, List.length_cons, List.length_append]; omega) ⟨";", rest, rfl, by simp⟩
  change (assignment (fuelFor (plain (.mark "=") :: behind)) behind >>= fun r => do
    return (Statement.declare "o" (some r.1), ← endStatement r.2)) = _
  rw [hslot]
  rfl

theorem length_conditionTokens (members : List String) :
    members.length + 19 ≤ (conditionTokens members).length := by
  have hmembers : members.length ≤ (members.flatMap fun m => TokenKind.mark "&&" :: memberTokens m).length := by
    induction members with
    | nil => exact Nat.zero_le _
    | cons m members ih =>
      rw [List.flatMap_cons, List.length_append, List.length_cons, List.length_cons]
      omega
  rw [conditionTokens, List.length_append]
  exact (Nat.add_le_add_right hmembers 19).trans_eq (Nat.add_comm _ 19)

theorem body_condition (members : List String) (fuel : Nat) :
    body true (fuel + 2) (plain (.word "return") :: ((conditionTokens members).map plain ++ plain (.mark ";") :: [bodyEnd])) =
      .ok [.result (some (condition members))] := by
  let behind := (conditionTokens members).map plain ++ plain (.mark ";") :: [bodyEnd]
  have hfuel : members.length + 27 ≤ fuelFor (plain (.word "return") :: behind) := by
    have hlength := length_conditionTokens members
    simp only [fuelFor, behind, List.length_cons, List.length_append, List.length_map]
    omega
  have hstatement : statement true (plain (.word "return") :: behind) =
      (expression (fuelFor (plain (.word "return") :: behind)) behind >>= fun r => do
        return (.result (some r.1), ← endStatement r.2)) := rfl
  rw [body_word, hstatement, expression_condition members [bodyEnd] hfuel]
  rfl

theorem tooDeep_joined (members : List String) (rest : List Token) :
    tooDeep 0 (joinedTokens members rest) = tooDeep 0 rest := by
  induction members with
  | nil => rfl
  | cons m members ih =>
    have hjoined : joinedTokens (m :: members) rest =
        plain (.mark "&&") :: ((memberTokens m).map plain ++ joinedTokens members rest) := by
      simp [joinedTokens]
    rw [hjoined, ← ih]
    unfold memberTokens
    cases propertyName? m <;> rfl

/-- A probe is read as the declaration of its variable, and the condition that it returns. -/
theorem statements_probe {table : String} (htable : table ∉ reserved) (x : Number) (members : List String) :
    statements true (plain (.word "var") :: plain (.word "o") :: plain (.mark "=") ::
        ((slotTokens table x).map plain ++ plain (.mark ";") :: plain (.word "return") ::
          ((conditionTokens members).map plain ++ plain (.mark ";") :: [bodyEnd]))) =
      .ok [.declare "o" (some (.index (.name table) (.constant (.number x)))), .result (some (condition members))] := by
  have htokens : (conditionTokens members).map plain ++ plain (.mark ";") :: [bodyEnd] =
      objectTokens.map plain ++ joinedTokens members [bodyEnd] := by
    simp [conditionTokens, joinedTokens]
  have hdeep : tooDeep 0 (plain (.word "var") :: plain (.word "o") :: plain (.mark "=") ::
      ((slotTokens table x).map plain ++ plain (.mark ";") :: plain (.word "return") ::
        ((conditionTokens members).map plain ++ plain (.mark ";") :: [bodyEnd]))) = false := by
    rw [htokens]
    change tooDeep 0 (joinedTokens members [bodyEnd]) = false
    rw [tooDeep_joined]
    rfl
  have hdeclare (ts : List Token) : statement true (plain (.word "var") :: ts) = declaration ts := rfl
  rw [statements, hdeep, if_neg Bool.false_ne_true, body_word, hdeclare, declaration_slot htable]
  exact congrArg (fun r => r.map (Statement.declare "o" (some (.index (.name table) (.constant (.number x)))) :: ·))
    (body_condition members _)

end Script.Parser

namespace Probe

section Reading

variable {text rest : List Char} {ks : List TokenKind}

private theorem scans_o {d : Char} (hd : isWordPart d = false) (htext : Scans (d :: text) ks rest) :
    Scans ('o' :: d :: text) (.word "o" :: ks) rest := scans_word' (x := "o") (by decide) hd htext

private theorem scans_different (htext : Scans text ks rest) :
    Scans ('!' :: '=' :: '=' :: ' ' :: text) (.mark "!==" :: ks) rest :=
  (Token.scans_operator (by decide) ['=', '='] (fun _ => rfl) rfl (text ++ rest)).append (scans_blank htext)

private theorem scans_either (htext : Scans text ks rest) :
    Scans ('|' :: '|' :: ' ' :: text) (.mark "||" :: ks) rest :=
  (Token.scans_operator (by decide) ['|'] (fun _ => rfl) rfl (text ++ rest)).append (scans_blank htext)

private theorem scans_string (s : String) (htext : Scans text ks rest) :
    Scans (Expression.quoted s ++ text) (.string (.text s) :: ks) rest := (scans_quoted s _).append htext

private theorem scans_present (name : String) {d : Char} (hd : isWordPart d = false) (htext : Scans (d :: text) ks rest) :
    Scans (Expression.quoted name ++ (" in o".toList ++ d :: text)) (presentTokens name ++ ks) rest :=
  scans_string name <| scans_blank <| scans_word' (x := "in") (by decide) (by decide +kernel) <| scans_blank <|
    scans_o hd htext

theorem scans_memberTest (member : String) (rest : List Char) : Scans (memberTest member) (memberTokens member) rest := by
  have hclose : Scans [')'] [.mark ")"] rest := scans_char (by decide) (.nil rest)
  unfold memberTest memberTokens
  cases propertyName? member with
  | none =>
    simpa using scans_char (c := '(') (by decide) (scans_present member (by decide +kernel) hclose)
  | some property =>
    have hsecond := scans_present property (by decide +kernel) hclose
    have hfirst := scans_present member (d := ' ') (by decide +kernel) (scans_blank (scans_either hsecond))
    simpa using scans_char (c := '(') (by decide) hfirst

theorem scans_members (members : List String) (rest : List Char) :
    Scans (members.flatMap fun m => " && ".toList ++ memberTest m) (members.flatMap fun m => .mark "&&" :: memberTokens m)
      rest := by
  induction members with
  | nil => exact .nil rest
  | cons m members ih =>
    have hfirst := scans_blank (scans_both (scans_memberTest m ((members.flatMap fun m => " && ".toList ++ memberTest m) ++ rest)))
    simpa using hfirst.append ih

/-- The question whether there is an object, up to its closing parenthesis. -/
theorem scans_object (rest : List Char) :
    Scans objectText objectTokens rest := by
  have hclose : Scans [')'] [.mark ")"] rest := scans_char (by decide) (.nil rest)
  have htype (name : String) {text : List Char} {ks : List TokenKind} (htext : Scans text ks rest) :
      Scans ("typeof o === ".toList ++ (Expression.quoted name ++ text))
        (.word "typeof" :: .word "o" :: .mark "===" :: .string (.text name) :: ks) rest :=
    scans_word' (x := "typeof") (by decide) (by decide +kernel) <| scans_blank <| scans_o (by decide +kernel) <|
      scans_blank <| scans_same <| scans_string name htext
  have hdiffers (name : String) (hname : isIdentifier name.toList = true) {text : List Char} {ks : List TokenKind}
      (htext : Scans text ks rest) : Scans ("o !== ".toList ++ (name.toList ++ " && ".toList ++ text))
        (.word "o" :: .mark "!==" :: .word name :: .mark "&&" :: ks) rest := by
    have hword := scans_word' hname (d := ' ') (by decide +kernel) (scans_blank (scans_both htext))
    simpa using scans_o (d := ' ') (by decide +kernel) (scans_blank (scans_different hword))
  have hkind := scans_char (c := '(') (by decide) <| htype "object" <| scans_blank <| scans_either <|
    htype "function" hclose
  exact hdiffers "null" (by decide) (hdiffers "undefined" (by decide) hkind)

/-- The expression of a slot. -/
def slotExpr (table : String) (h : Handle) : Expr :=
  .index (.name table) (.constant (.number (.ofDouble (.ofNat h.index))))

private theorem toList_script (target : List Char) (members : List String) : (script target members).toList =
    "var".toList ++ ' ' :: 'o' :: ' ' :: '=' :: ' ' :: (target ++ ';' :: ' ' :: ("return".toList ++
      ' ' :: (objectText ++ ((members.flatMap fun m => " && ".toList ++ memberTest m) ++ [';'])))) := by
  have hvar : "var o = ".toList = "var".toList ++ ' ' :: 'o' :: ' ' :: '=' :: ' ' :: [] := by decide +kernel
  have hreturn : "; return o !== null && o !== undefined && (typeof o === 'object' || typeof o === 'function')".toList =
      ';' :: ' ' :: ("return".toList ++ ' ' :: objectText) := by decide +kernel
  refine (String.toList_ofList).trans ?_
  rw [hvar, hreturn]
  simp only [List.append_assoc, List.cons_append, List.nil_append]

/-- What a probe does: it names the slot, and asks. -/
def statements (table : String) (h : Handle) (members : List String) : List Statement :=
  [.declare "o" (some (slotExpr table h)), .result (some (condition members))]

theorem scans_script {table : String} (htable : isIdentifier table.toList = true) (h : Handle) (members : List String) :
    Scans (script (Expression.reference table h) members).toList
      (.word "var" :: .word "o" :: .mark "=" :: (slotTokens table (.ofDouble (.ofNat h.index)) ++
        .mark ";" :: .word "return" :: (conditionTokens members ++ [.mark ";"]))) [] := by
  have hend : Scans [';'] [.mark ";"] [] := scans_char (by decide) (.nil [])
  have hcondition := (scans_object _).append ((scans_members members _).append hend)
  have hreturn := scans_word' (x := "return") (by decide) (by decide +kernel) (scans_blank hcondition)
  have hslot := (Token.scans_reference htable h _).append (scans_char (c := ';') (by decide) (scans_blank hreturn))
  have hassign : Scans _ _ [] := (Token.scans_operator (c := '=') (by decide) [] (m := "=") (fun _ => rfl) rfl
    _).append (scans_blank hslot)
  have hall := scans_word' (x := "var") (by decide) (by decide +kernel) <| scans_blank <| scans_o (by decide +kernel) <|
    scans_blank hassign
  rw [toList_script]
  simpa [conditionTokens, slotTokens] using hall

/-- A probe is read as the declaration of its variable, and the condition that it returns. -/
theorem ofBody_script {table : String} (htable : isIdentifier table.toList = true) (hname : table ∉ Parser.reserved)
    (h : Handle) (members : List String) :
    Program.ofBody (script (Expression.reference table h) members).toList =
      .ok (.statements (statements table h members)) := by
  have hread := Parser.statements_probe hname (.ofDouble (.ofNat h.index)) members
  rw [Program.ofBody, (scans_script htable h members).scan]
  simp only [List.map_cons, List.map_append, List.map_nil, List.cons_append, List.append_assoc, List.nil_append]
  rw [hread]
  rfl

end Reading

end Probe

namespace Script

/-- Whether an object has a member, or the property that the member reads, of its own or by what it inherits from. -/
def Heap.hasMember (h : Heap) (a : Address) (member : String) : Bool :=
  h.has a (.ofText member) || (propertyName? member).any fun property => h.has a (.ofText property)

/-- Whether a value is an object that has all these members. -/
def Heap.hasMembers (h : Heap) (v : Value) (members : List String) : Bool :=
  match v with
  | .object a => members.all (h.hasMember a)
  | _ => false

namespace Expr

variable {s : Scope} {h : Heap} {a b : Expr} {x y : Bool} {v w : Value} {members : List String}

theorem outcome_equals (expected : Bool) (ha : outcome (a.evaluate s) h = (.ok v, h))
    (hb : outcome (b.evaluate s) h = (.ok w, h)) :
    outcome ((equals expected a b).evaluate s) h = (.ok (.bool (v.same w == expected)), h) := by
  rw [evaluate, outcome_bind_ok ha, outcome_bind_ok hb]
  rfl

/-- The second operand counts only where the first is true. -/
theorem outcome_both (ha : outcome (a.evaluate s) h = (.ok (.bool x), h))
    (hb : x = true → outcome (b.evaluate s) h = (.ok (.bool y), h)) :
    outcome ((both a b).evaluate s) h = (.ok (.bool (x && y)), h) := by
  rw [evaluate, outcome_bind_ok ha]
  cases x with
  | false => rfl
  | true => exact hb rfl

theorem outcome_either (ha : outcome (a.evaluate s) h = (.ok (.bool x), h))
    (hb : outcome (b.evaluate s) h = (.ok (.bool y), h)) :
    outcome ((either a b).evaluate s) h = (.ok (.bool (x || y)), h) := by
  rw [evaluate, outcome_bind_ok ha]
  cases x with
  | false => exact hb
  | true => rfl

end Expr
end Script

namespace Probe

section Running

variable {s : Scope} {h : Heap} {v : Value} {a : Address}

private theorem lookup?_of_find? {x : String} (hx : s.find? x = some v) (h : Heap) :
    outcome (s.lookup? x) h = (.ok (some v), h) := by
  rw [Scope.lookup?, hx]
  rfl

theorem outcome_o (ho : s.find? "o" = some v) (h : Heap) :
    outcome ((Expr.name "o").evaluate s) h = (.ok v, h) := by
  rw [Expr.evaluate, Scope.lookup, outcome_bind_ok (lookup?_of_find? ho h)]
  rfl

private theorem outcome_typeOf (ho : s.find? "o" = some v) (h : Heap) :
    outcome ((Expr.typeOf (.name "o")).evaluate s) h = (.ok (.text (h.typeWord v)), h) := by
  rw [Expr.evaluate, outcome_bind_ok (lookup?_of_find? ho h)]
  rfl

theorem outcome_objectExpr (ho : s.find? "o" = some v) (hu : s.find? "undefined" = none)
    (hundefined : h.Holds Heap.global (.ofText "undefined") .undefined) :
    outcome (objectExpr.evaluate s) h = (.ok (.bool (h.hasMembers v [])), h) := by
  have hnull := Expr.outcome_equals false (outcome_o ho h) (Expr.outcome_constant s .null h)
  have hname := Expr.outcome_equals false (outcome_o ho h) (Expr.outcome_name hu (by decide) hundefined)
  have htype (name : String) := Expr.outcome_equals true (outcome_typeOf ho h) (Expr.outcome_constant s (.text name) h)
  rw [objectExpr, Expr.outcome_both (Expr.outcome_both hnull fun _ => hname) fun _ =>
    Expr.outcome_either (htype "object") (htype "function")]
  cases v with
  | object a =>
    rw [Heap.typeWord]
    cases (h.code? a).isSome <;> rfl
  | _ => rfl

theorem outcome_presentExpr (ho : s.find? "o" = some (.object a)) (name : String) :
    outcome ((presentExpr name).evaluate s) h = (.ok (.bool (h.has a (.ofText name))), h) := by
  rw [presentExpr, Expr.evaluate, outcome_bind_ok (Expr.outcome_constant s _ h), outcome_bind_ok (outcome_o ho h)]
  rfl

theorem outcome_memberExpr (ho : s.find? "o" = some (.object a)) (member : String) :
    outcome ((memberExpr member).evaluate s) h = (.ok (.bool (h.hasMember a member)), h) := by
  rw [memberExpr, Heap.hasMember]
  cases propertyName? member with
  | none => rw [outcome_presentExpr ho, Option.any_none, Bool.or_false]
  | some property => rw [Expr.outcome_either (outcome_presentExpr ho member) (outcome_presentExpr ho property), Option.any_some]

/-- Where there is no object no question is asked. -/
theorem outcome_condition (ho : s.find? "o" = some v) (hu : s.find? "undefined" = none)
    (hundefined : h.Holds Heap.global (.ofText "undefined") .undefined) (members : List String) :
    outcome ((condition members).evaluate s) h = (.ok (.bool (h.hasMembers v members)), h) := by
  induction members using List.reverseRecOn with
  | nil => exact outcome_objectExpr ho hu hundefined
  | append_singleton members m ih =>
    have hcondition : condition (members ++ [m]) = .both (condition members) (memberExpr m) := by
      rw [condition, List.foldl_append]
      rfl
    rw [hcondition]
    cases v with
    | object a =>
      rw [Expr.outcome_both ih fun _ => outcome_memberExpr ho m]
      simp [Heap.hasMembers]
    | _ => exact Expr.outcome_both (y := true) ih fun hfalse => absurd hfalse Bool.false_ne_true

end Running

private theorem caseRuns_valid : ∀ r ∈ Text.caseRuns, 0 < r.first + r.offset ∧
    (r.last + r.offset < 0xD800 ∨ 0xDFFF < r.first + r.offset ∧ r.last + r.offset < 0x110000) := by decide +kernel

private theorem nullFree_lower {c : Char} (hc : c.toNat ≠ 0) : NullFree (Text.lower c) := by
  unfold Text.lower
  split
  · exact .of_all (by decide)
  · split
    · next r hr =>
      have hcovers := List.find?_some hr
      simp only [Text.CaseRun.covers, Bool.and_eq_true, decide_eq_true_eq] at hcovers
      obtain ⟨hpositive, hrange⟩ := caseRuns_valid r (List.mem_of_find?_eq_some hr)
      have hvalid : (c.toNat + r.offset : Int).toNat.isValidChar := by
        unfold Nat.isValidChar
        omega
      refine .cons ?_ .nil
      rw [Char.ofNat, dif_pos hvalid]
      change (c.toNat + r.offset : Int).toNat ≠ 0
      omega
    · exact .cons hc .nil

theorem nullFree_property {member property : String} (hproperty : propertyName? member = some property)
    (hmember : NullFree member.toList) : NullFree property.toList := by
  unfold propertyName? at hproperty
  split at hproperty
  · next first rest hlist =>
    split at hproperty
    · cases hproperty
      rw [String.toList_ofList]
      rw [hlist] at hmember
      exact (nullFree_lower (hmember first (by simp))).append fun c hc => hmember c (by simp [hc])
    · cases hproperty
  · cases hproperty

theorem nullFree_memberTest {member : String} (hmember : NullFree member.toList) : NullFree (memberTest member) := by
  have hpresent {name : String} (hname : NullFree name.toList) : NullFree (Expression.quoted name ++ " in o".toList) :=
    (NullFree.quoted hname).append (.of_all (by decide))
  have hopen : NullFree ['('] := .of_all (by decide)
  have hclose : NullFree [')'] := .of_all (by decide)
  unfold memberTest
  split
  · next property hproperty =>
    have hor : NullFree " || ".toList := .of_all (by decide)
    exact ((hopen.append (hpresent hmember)).append hor).append (hpresent (nullFree_property hproperty hmember)) |>.append hclose
  · exact (hopen.append (hpresent hmember)).append hclose

theorem nullFree_script {table : String} (htable : isIdentifier table.toList = true) (h : Handle) {members : List String}
    (hmembers : ∀ m ∈ members, NullFree m.toList) : NullFree (script (Expression.reference table h) members).toList := by
  have hvar : NullFree "var".toList := .of_all (by decide)
  have hname : NullFree [' ', 'o', ' ', '=', ' '] := .of_all (by decide)
  have hbetween : NullFree [';', ' '] := .of_all (by decide)
  have hreturn : NullFree "return".toList := .of_all (by decide)
  have hobject : NullFree (' ' :: objectText) := .of_all (by decide +kernel)
  have hand : NullFree " && ".toList := .of_all (by decide)
  have hend : NullFree [';'] := .of_all (by decide)
  have hindex : NullFree h.numeralText := .of_digits fun _ => Text.isDigit_of_mem_decimal
  have hslot : NullFree (Expression.reference table h) :=
    ((NullFree.of_identifier htable).append (.cons (by decide) hindex)).append (.cons (by decide) .nil)
  have htests : NullFree (members.flatMap fun m => " && ".toList ++ memberTest m) := fun c hc => by
    obtain ⟨m, hm, hc⟩ := List.mem_flatMap.1 hc
    exact hand.append (nullFree_memberTest (hmembers m hm)) c hc
  rw [toList_script]
  exact hvar.append <| hname.append <| hslot.append <| hbetween.append <| hreturn.append <| hobject.append <|
    htests.append hend

/-- The variable is known from the start, and has no value up to its declaration. -/
def scope : Scope := { Scope.body with names := [("o", .undefined)] }

end Probe

namespace Embedded

open Script

private theorem evaluate_script {table : String} (hidentifier : isIdentifier table.toList = true)
    (hname : table ∉ Parser.reserved) (target : Handle) {members : List String} (hmembers : ∀ m ∈ members, NullFree m.toList)
    (h : Heap) : engine.evaluate (Probe.script (Expression.reference table target) members) h =
      reply h (Statement.runAll Probe.scope (Probe.statements table target members)) toWire := by
  have hlaunch (script : String) : engine.evaluate script h =
      launch (wrap script.toList) (Program.ofBody script.toList) .body toWire h := rfl
  rw [hlaunch, launch.eq_def, (Probe.nullFree_script hidentifier target hmembers).nullAt?_wrap,
    Probe.ofBody_script hidentifier hname target members]
  rfl

/-- A probe answers whether the slot holds an object with all the members, and leaves the heap as it is. -/
theorem evaluate_probe {table : String} (hidentifier : isIdentifier table.toList = true) (hvariable : IsVariable table)
    (hapart : table ≠ "o") {h : Heap} {t : Address} (ht : h.Holds Heap.global (.ofText table) (.object t))
    (hundefined : h.Holds Heap.global (.ofText "undefined") .undefined) (target : Handle) {members : List String}
    (hmembers : ∀ m ∈ members, NullFree m.toList) :
    engine.evaluate (Probe.script (Expression.reference table target) members) h =
      ⟨.ok (.bool (h.hasMembers (h.get t (.ofNat target.index)) members)), h, []⟩ := by
  let v := h.get t (.ofNat target.index)
  let declared : Scope := { Scope.body with names := [("o", v), ("o", .undefined)] }
  have hslot : outcome ((Probe.slotExpr table target).evaluate Probe.scope) h = (.ok v, h) := by
    refine Expr.outcome_slot target.raw.toNat_lt ?_ hvariable.2 ht
    simp [Probe.scope, Scope.find?, hapart.symm]
  have hcondition : outcome ((Probe.condition members).evaluate declared) h = (.ok (.bool (h.hasMembers v members)), h) :=
    Probe.outcome_condition rfl rfl hundefined members
  have hrun : outcome (Statement.runAll Probe.scope (Probe.statements table target members)) h =
      (.ok (.bool (h.hasMembers v members)), h) := by
    rw [Probe.statements, Statement.runAll, outcome_bind_ok hslot]
    exact hcondition
  rw [evaluate_script hidentifier hvariable.1 target hmembers, reply_of_ok hrun, toWire, wire]
  rfl

/-- The variable of a probe hides a table of its own name: it has no value yet where the slot is read. -/
theorem evaluate_probe_hidden (h : Heap) (target : Handle) {members : List String}
    (hmembers : ∀ m ∈ members, NullFree m.toList) :
    ∃ message, engine.evaluate (Probe.script (Expression.reference "o" target) members) h = raised h message := by
  have hkey : Run.key Run.invoke (.number (.ofDouble (.ofNat target.index))) = pure (.ofNat target.index) :=
    Run.key_number target.raw.toNat_lt (Number.toDouble_ofDouble _)
  have hslot : ∃ t, outcome ((Probe.slotExpr "o" target).evaluate Probe.scope) h = (.error t, h) := by
    rw [Probe.slotExpr, Expr.evaluate, outcome_bind_ok (Probe.outcome_o rfl h),
      outcome_bind_ok (Expr.outcome_constant _ _ h), hkey, pure_bind]
    exact ⟨_, rfl⟩
  obtain ⟨t, hslot⟩ := hslot
  have hrun : outcome (Statement.runAll Probe.scope (Probe.statements "o" target members)) h = (.error t, h) := by
    rw [Probe.statements, Statement.runAll, outcome_bind_error hslot]
  exact ⟨_, (evaluate_script (by decide) (by decide) target hmembers h).trans (reply_of_error hrun toWire)⟩

end Embedded
end ScriptBridge
