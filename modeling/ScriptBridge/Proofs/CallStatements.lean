import ScriptBridge.Proofs.ProbeScripts
import ScriptBridge.Proofs.Scopes
import ScriptBridge.Proofs.ValidScripts

/-! Calls as statements. A rendered call with a semicolon behind it is read as one statement, the same at the top of a
script and in the body of a function, and its expression means the same in both. -/
namespace ScriptBridge

open Probe (slotExpr slotTokens)
open Script
open Script.Token (Scans plain scans_arguments scans_mark scans_point scans_reference)

/-- The tokens of a call. -/
def Native.callTokens (table : String) (owner : Option Session) (h : Handle) (member : String) (args : List Native) :
    List TokenKind :=
  slotTokens table (.ofDouble (.ofNat h.index)) ++ .mark "." ::
    match propertyName? member, args with
    | some property, [] => [.word property]
    | _, _ => .word member :: .mark "(" :: (itemTokens table owner args ++ [.mark ")"])

/-- The expression as which a call is read. -/
def Native.callExpr (table : String) (owner : Option Session) (h : Handle) (member : String) (args : List Native) : Expr :=
  match propertyName? member, args with
  | some property, [] => .member (slotExpr table h) property
  | _, _ => .call (.member (slotExpr table h) member) (exprs table owner args)

variable {table member : String} {owner : Option Session}

/-- A call is the read of a property or has arguments, and so have its tokens and its expression. -/
theorem Native.call_cases (table : String) (owner : Option Session) (h : Handle) (member : String) (args : List Native) :
    (∃ property, propertyName? member = some property ∧ args = [] ∧
      Expression.call table owner h member args = Expression.reference table h ++ '.' :: property.toList ∧
      callTokens table owner h member args =
        slotTokens table (.ofDouble (.ofNat h.index)) ++ [.mark ".", .word property] ∧
      callExpr table owner h member args = .member (slotExpr table h) property) ∨
    Expression.call table owner h member args = Expression.reference table h ++
        '.' :: (member.toList ++ '(' :: (Expression.separated (Expression.arguments table owner args) ++ [')'])) ∧
      callTokens table owner h member args = slotTokens table (.ofDouble (.ofNat h.index)) ++
        .mark "." :: .word member :: .mark "(" :: (itemTokens table owner args ++ [.mark ")"]) ∧
      callExpr table owner h member args = .call (.member (slotExpr table h) member) (exprs table owner args) := by
  unfold Expression.call callTokens callExpr
  rcases propertyName? member with _ | property <;> rcases args with _ | ⟨v, rest⟩
  · exact .inr ⟨by simp, rfl, rfl⟩
  · exact .inr ⟨by simp, rfl, rfl⟩
  · exact .inl ⟨property, rfl, rfl, rfl, rfl, rfl⟩
  · exact .inr ⟨by simp, rfl, rfl⟩

namespace Script

/-- Behind the point of a slot stands a word. -/
private theorem scans_access (htable : isIdentifier table.toList = true) (h : Handle) {x : String} (hx : IsWord x.toList)
    {d : Char} (hd : isWordPart d = false) {text rest : List Char} {ks : List TokenKind}
    (htext : Scans (d :: text) ks rest) :
    Scans (Expression.reference table h ++ '.' :: (x.toList ++ d :: text))
      (slotTokens table (.ofDouble (.ofNat h.index)) ++ .mark "." :: .word x :: ks) rest := by
  have hhead : ∀ c ∈ ((d :: text) ++ rest).head?, isWordPart c = false := by
    intro c hc
    obtain rfl := Option.some.inj hc
    exact hd
  have hword : Scans x.toList [.word x] ((d :: text) ++ rest) := by
    have hread := Scans.word hx hhead
    rwa [String.ofList_toList] at hread
  have hdigit : (x.toList ++ d :: text ++ rest).head?.any Char.isDigit = false := by
    cases hcs : x.toList with
    | nil => exact absurd hx (by rw [hcs]; exact id)
    | cons c cs =>
      rw [hcs] at hx
      by_contra hc
      have hstart := isWordStart_digit (c := c) (by simpa using hc)
      exact absurd hx.1 (by simp [hstart])
  have haccess := (scans_point hdigit).append (hword.append htext)
  simpa [slotTokens] using (scans_reference htable h _).append haccess

theorem scans_call (htable : isIdentifier table.toList = true) (owner : Option Session) (h : Handle)
    (hmember : IsWord member.toList) (args : List Native) :
    Scans (Expression.call table owner h member args ++ [';'])
      (Native.callTokens table owner h member args ++ [.mark ";"]) [] := by
  have hend : Scans [';'] [.mark ";"] [] := scans_mark (c := ';') (by decide) []
  rcases Native.call_cases table owner h member args with ⟨property, hproperty, rfl, htext, htokens, -⟩ | ⟨htext, htokens, -⟩
    <;> rw [htext, htokens]
  · have hword : IsWord property.toList := isWord_propertyName? hmember hproperty
    simpa using scans_access htable h hword (by decide +kernel) hend
  · have hclose := (scans_mark (c := ')') (by decide) _).append hend
    have hargs := (scans_arguments htable owner args (.inr rfl) _).append hclose
    have hopen := (scans_mark (c := '(') (by decide) _).append hargs
    simpa using scans_access htable h hmember (by decide +kernel) hopen

namespace Parser

variable {fuel : Nat} {ts rest : List Token} {e : Expr}

theorem parses_call (htable : table ∉ reserved) (owner : Option Session) (h : Handle) (member : String)
    (args : List Native) :
    Parses ((Native.callTokens table owner h member args).map plain) (Native.callExpr table owner h member args) := by
  let x : Number := .ofDouble (.ofNat h.index)
  rcases Native.call_cases table owner h member args with ⟨property, -, rfl, -, htokens, hexpr⟩ | ⟨-, htokens, hexpr⟩
    <;> rw [htokens, hexpr]
  · refine parses_of_operand (by simp [slotTokens]) fun fuel rest hfuel hrest => ?_
    obtain ⟨fuel, rfl⟩ : ∃ n, fuel = n + 10 := ⟨fuel - 10, by simp [slotTokens] at hfuel; omega⟩
    have hsuffixes := (suffixes_index (.name table) x fuel (plain (.mark ".") :: plain (.word property) :: rest)).trans
      ((suffixes_member true _ property (fuel + 8) rest).trans (suffixes_stop true hrest))
    exact operand_of_primary (prefixOp?_name htable) (primary_name htable _ _) hsuffixes
  · refine parses_of_operand (by simp [slotTokens]) fun fuel rest hfuel hrest => ?_
    have hroom : 8 * (Native.itemTokens table owner args).length + 61 ≤ fuel := by
      simp only [slotTokens, List.map_append, List.map_cons, List.map_nil, List.length_append, List.length_cons,
        List.length_map, List.length_nil] at hfuel
      omega
    obtain ⟨fuel, rfl⟩ : ∃ n, fuel = n + 10 := ⟨fuel - 10, by omega⟩
    have hitems := items_values htable owner args false (.inr rfl) [] rest (fuel + 7) (by omega)
    have hcall := (suffixes_call (.member (slotExpr table h) member) hitems).trans (suffixes_stop true hrest)
    have hsuffixes := (suffixes_index (.name table) x fuel _).trans
      ((suffixes_member true _ member (fuel + 8) _).trans hcall)
    simpa [slotTokens] using operand_of_primary (prefixOp?_name htable) (primary_name htable _ _) hsuffixes

/-- A statement that begins with a name is an expression. -/
private theorem statement_name {x : String} (hx : x ∉ reserved) (inBody : Bool) (ts : List Token) :
    statement inBody (plain (.word x) :: ts) = (do
      let (e, rest) ← expression (fuelFor (plain (.word x) :: ts)) (plain (.word x) :: ts)
      return (.run e, ← endStatement rest)) := by
  have hne {w : String} (hw : w ∈ reserved) : x ≠ w := by rintro rfl; exact hx hw
  have hreturn : x ≠ "return" := hne (by decide)
  have hthrow : x ≠ "throw" := hne (by decide)
  have hvar : x ≠ "var" := hne (by decide)
  have hfault : statementFault? x = none := by
    simp only [reserved, List.mem_cons, not_or] at hx
    simp [statementFault?, hx]
  unfold statement plain
  split <;> simp_all

/-- What stands behind the last statement of a script, or of a body. -/
def closing (inBody : Bool) : List Token := if inBody then [bodyEnd] else []

/-- An expression that begins with a name is one statement, by itself or as a body. -/
theorem statements_run {x : String} (hx : x ∉ reserved) (hread : Parses (plain (.word x) :: ts) e) (inBody : Bool) :
    statements inBody (plain (.word x) :: ts ++ plain (.mark ";") :: closing inBody) =
      if tooDeep 0 (plain (.word x) :: ts) then told "stack overflow" else .ok [.run e] := by
  have hdeep : tooDeep 0 (plain (.word x) :: ts ++ plain (.mark ";") :: closing inBody) =
      tooDeep 0 (plain (.word x) :: ts) :=
    tooDeep_append (fun depth => by cases inBody <;> rfl) 0 _
  have hend : endStatement (plain (.mark ";") :: closing inBody) = .ok (closing inBody) := by cases inBody <;> rfl
  have hempty (fuel : Nat) : body inBody fuel (closing inBody) = .ok [] := by
    cases inBody <;> cases fuel <;> rfl
  have hexpression := hread.expression (.inr (.inr rfl)) (closing inBody)
    (show 8 * (plain (.word x) :: ts).length ≤
      8 * (plain (.word x) :: ts ++ plain (.mark ";") :: closing inBody).length + 7 by
        simp only [List.length_append]
        omega)
  rw [statements, hdeep, List.cons_append, body_word, statement_name hx, fuelFor, ← List.cons_append, hexpression]
  simp only [bind, Except.bind, pure, Except.pure, hend, hempty]

end Parser

/-- A text that begins with a name and a bracket installs nothing, and is read as it stands. -/
theorem Program.ofScript_slot (htable : isIdentifier table.toList = true) (hname : table ∉ Parser.reserved)
    (text : List Char) : ofScript (table.toList ++ '[' :: text) =
      (Parser.statements false (Token.scan (table.toList ++ '[' :: text))).map .statements := by
  have hinstallation : installation? (table.toList ++ '[' :: text) = none := by
    obtain ⟨front, pieces, htemplate⟩ := Bootstrap.template_head
    have hfront : ('(' :: front).isPrefixOf (table.toList ++ '[' :: text) = false := by
      cases hcs : table.toList with
      | nil => exact absurd htable (by simp [hcs, isIdentifier])
      | cons c cs =>
        have hc : c ≠ '(' := by
          rintro rfl
          simp [hcs, isIdentifier, isIdentifierStart] at htable
        simp [List.isPrefixOf, hc.symm]
    rw [installation?, htemplate, captures?, hfront]
    rfl
  have hguarded : Program.guarded? (table.toList ++ '[' :: text) = none := by
    have hfront : guardStart.isPrefixOf (table.toList ++ '[' :: text) = false := by
      by_contra hprefix
      obtain ⟨behind, hbehind⟩ := List.isPrefixOf_iff_prefix.1 (Bool.not_eq_false _ ▸ hprefix)
      have hpart := (isWord_of_isIdentifier htable).part
      have htake := (Grammar.span_append_cons hpart (show isWordPart '[' = false by decide +kernel) text).1
      have hfirst : guardStart.take 3 = ['i', 'f', ' '] := rfl
      have hguard : guardStart = ['i', 'f'] ++ ' ' :: guardStart.drop 3 := by
        rw [← List.take_append_drop 3 guardStart, hfirst]
        rfl
      have hifPart : ∀ c ∈ ['i', 'f'], isWordPart c = true := (isWord_of_isIdentifier (by decide)).part
      have hif : ['i', 'f'] = table.toList := by
        rw [← hbehind, hguard, List.append_assoc, List.cons_append] at htake
        exact (Grammar.span_append_cons hifPart (show isWordPart ' ' = false by decide +kernel) _).1.symm.trans htake
      have htable : table = "if" := String.toList_inj.1 hif.symm
      exact hname (by rw [htable]; decide)
    rw [guarded?, guard?, afterText?, hfront]
    rfl
  rw [ofScript, hinstallation, hguarded]

/-- The program of a call as a statement, unless its brackets are nested too deep. -/
def Program.calling (table : String) (owner : Option Session) (h : Handle) (member : String) (args : List Native) :
    Except SyntaxFault Program :=
  if Parser.tooDeep 0 ((Native.callTokens table owner h member args).map plain) then Parser.told "stack overflow"
  else .ok (.statements [.run (Native.callExpr table owner h member args)])

private theorem statements_call (htable : isIdentifier table.toList = true) (hname : table ∉ Parser.reserved)
    (owner : Option Session) (h : Handle) (hmember : IsWord member.toList) (args : List Native) (inBody : Bool) :
    (Parser.statements inBody (Token.scan (Expression.call table owner h member args ++ [';']) ++
      Parser.closing inBody)).map .statements = Program.calling table owner h member args := by
  have hread := Parser.parses_call hname owner h member args
  have hscan := (scans_call htable owner h hmember args).scan
  obtain ⟨ts, hts⟩ : ∃ ts, (Native.callTokens table owner h member args).map plain = plain (.word table) :: ts :=
    ⟨_, rfl⟩
  rw [List.map_append, hts] at hscan
  rw [hts] at hread
  rw [hscan, List.append_assoc, Program.calling, hts]
  exact (congrArg (Except.map Program.statements) (Parser.statements_run hname hread inBody)).trans (apply_ite ..)

/-- As a script and as a body a call is the same program. -/
theorem Program.ofScript_calling (htable : isIdentifier table.toList = true) (hname : table ∉ Parser.reserved)
    (owner : Option Session) (h : Handle) (hmember : IsWord member.toList) (args : List Native) :
    ofScript (Expression.call table owner h member args ++ [';']) = calling table owner h member args := by
  obtain ⟨text, htext⟩ : ∃ text, Expression.call table owner h member args ++ [';'] = table.toList ++ '[' :: text := by
    have hcall : Expression.call table owner h member args = Expression.reference table h ++ '.' :: _ := rfl
    rw [hcall, Expression.reference]
    simp only [List.append_assoc, List.cons_append]
    exact ⟨_, rfl⟩
  have hread := statements_call htable hname owner h hmember args false
  rw [Parser.closing, if_neg Bool.false_ne_true, List.append_nil] at hread
  rw [← hread, htext, ofScript_slot htable hname]

theorem Program.ofBody_calling (htable : isIdentifier table.toList = true) (hname : table ∉ Parser.reserved)
    (owner : Option Session) (h : Handle) (hmember : IsWord member.toList) (args : List Native) :
    ofBody (Expression.call table owner h member args ++ [';']) = calling table owner h member args :=
  statements_call htable hname owner h hmember args true

end Script

private theorem isGlobal_double (x : Double) : x.expr.isGlobal = true := by
  unfold Double.expr
  cases x.isNaN <;> cases x.isInfinite <;> cases x.negative <;> rfl

mutual
/-- The expression of a value mentions neither `this` nor the arguments of a call. -/
theorem Native.isGlobal_expr (htable : table ≠ "arguments") : (v : Native) → (v.expr table owner).isGlobal = true
  | .null | .bool _ | .text _ | .foreign _ => rfl
  | .int _ | .long _ | .double _ => isGlobal_double _
  | .array items => areGlobal_exprs htable items
  | .ref r => by
    rw [expr]
    split
    · simp [Expr.isGlobal, htable]
    · rfl

theorem Native.areGlobal_exprs (htable : table ≠ "arguments") : (vs : List Native) →
    Expr.areGlobal (exprs table owner vs) = true
  | [] => rfl
  | v :: rest => by
    rw [exprs, Expr.areGlobal, isGlobal_expr htable v, areGlobal_exprs htable rest]
    rfl
end

theorem Native.isGlobal_callExpr (htable : table ≠ "arguments") (owner : Option Session) (h : Handle) (member : String)
    (args : List Native) : (callExpr table owner h member args).isGlobal = true := by
  have hslot : (slotExpr table h).isGlobal = true := by simp [slotExpr, Expr.isGlobal, htable]
  rcases call_cases table owner h member args with ⟨property, -, rfl, -, -, hexpr⟩ | ⟨-, -, hexpr⟩ <;> rw [hexpr]
  · exact hslot
  · rw [Expr.isGlobal, Expr.isGlobal, hslot, areGlobal_exprs htable args]
    rfl

end ScriptBridge
