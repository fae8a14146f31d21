import ScriptBridge.Proofs.Capturing
import ScriptBridge.Proofs.Substitutions

/-! Which scripts of a bridge are scripts. The rules of a configuration let reserved words pass, and a name that stands
bare in a script may be none of them: neither that of the table or the converter nor the first one of the root. Where
they are not, and the root holds no placeholder, all scripts of the bridge are read, and so is every capture of an
expression. -/
namespace ScriptBridge

open Script.Parser (reserved)

namespace Script

open Token (Scans plain scans_mark)

/-! Expressions that can be put into parentheses. -/

/-- In front of a closing parenthesis a text is passed as these tokens. -/
def Token.Passes (text : List Char) (ts : List Token) : Prop :=
  ∀ rest found fuel, (text ++ ')' :: rest).length ≤ fuel → ∃ newLine fuel', (')' :: rest).length ≤ fuel' ∧
    scanFrom found false fuel (text ++ ')' :: rest) = scanFrom (ts.reverse ++ found) newLine fuel' (')' :: rest)

/-- A text that is an expression where it stands in parentheses. No comment of it hides the closing one, and there is
room for one more pair of brackets around it. -/
structure IsExpression (text : List Char) : Prop where
  passes : Token.Passes text (Token.scan text)
  reads : ∃ e, Parser.expression? text = .ok e
  shallow : Parser.tooDeep 1 (Token.scan text) = false

theorem Token.Scans.passes {text : List Char} {ks : List TokenKind} (h : ∀ rest, Scans text ks (')' :: rest)) :
    Passes text (ks.map plain) := by
  intro rest found fuel hfuel
  obtain ⟨fuel', hfuel', hscan⟩ := h rest found fuel hfuel
  exact ⟨false, fuel', hfuel', hscan⟩

namespace Parser

/-- What closes brackets or opens none makes nothing deeper. -/
theorem tooDeep_append {closing : List Token} (hclosing : ∀ depth, tooDeep depth closing = false) (depth : Nat)
    (ts : List Token) : tooDeep depth (ts ++ closing) = tooDeep depth ts := by
  induction ts generalizing depth with
  | nil => exact hclosing depth
  | cons t ts ih =>
    obtain ⟨k, newLine⟩ := t
    cases k with
    | mark m =>
      rw [List.cons_append, tooDeep, tooDeep]
      simp only [ih]
    | _ => exact ih depth

/-- Tokens that are read as one expression make their text one, unless they are nested too deep. -/
theorem expression?_of_parses {text : List Char} {ts : List Token} {e : Expr} (hscan : Token.scan text = ts)
    (hparses : Parses ts e) (hdeep : tooDeep 0 ts = false) : expression? text = .ok e := by
  have hread : expression (fuelFor (ts ++ [plain (.mark ")")])) (ts ++ [plain (.mark ")")]) =
      .ok (e, [plain (.mark ")")]) := hparses.expression (.inr (.inl rfl)) [] (by simp; omega)
  have htokens : Token.scan text ++ [⟨.mark ")", false⟩] = ts ++ [plain (.mark ")")] := by rw [hscan]; rfl
  unfold expression?
  simp only [htokens]
  rw [tooDeep_append fun _ => rfl, hdeep, if_neg Bool.false_ne_true, hread]
  rfl

/-- What is read in parentheses is read up to the closing one. -/
private theorem expression_of_expression? {text : List Char} {e : Expr} (h : expression? text = .ok e) :
    expression (8 * (Token.scan text).length + 16) (Token.scan text ++ [plain (.mark ")")]) =
      .ok (e, [plain (.mark ")")]) := by
  have hfuel : fuelFor (Token.scan text ++ [plain (.mark ")")]) = 8 * (Token.scan text).length + 16 := by
    simp only [fuelFor, List.length_append, List.length_cons, List.length_nil]
    omega
  have htokens : Token.scan text ++ [⟨.mark ")", false⟩] = Token.scan text ++ [plain (.mark ")")] := rfl
  simp only [expression?, htokens, hfuel] at h
  split at h
  · cases h
  · generalize hread : expression (8 * (Token.scan text).length + 16) (Token.scan text ++ [plain (.mark ")")]) = r at h
    rcases r with fault | ⟨f, rest⟩
    · cases h
    · rcases hclosed : expect ")" rest with fault | rest'
      · simp only [bind, Except.bind, hclosed] at h
        cases h
      · obtain ⟨close, rfl, -⟩ := eq_of_expect hclosed
        simp only [bind, Except.bind, hclosed] at h
        split at h
        · rename_i hempty
          obtain rfl := List.isEmpty_iff.1 hempty
          obtain rfl : f = e := Except.ok.inj h
          -- What is left behind the expression is an end of what was there, so it is the mark itself.
          obtain ⟨used, hused, -⟩ := (allExtend le_rfl).expression _ _ _ hread
          obtain ⟨-, hlast⟩ := List.append_inj' hused rfl
          rw [hlast]
        · unfold unexpected at h
          split at h <;> cases h

/-- What is read in parentheses as one expression is read as the arguments of a call. -/
theorem items_of_expression? {text : List Char} {e : Expr} (h : expression? text = .ok e) {close : Token}
    (hclose : close.kind = .mark ")") (rest : List Token) : ∃ f es, e = joined f es ∧
      items false ")" (8 * (Token.scan text).length + 16) [] (Token.scan text ++ close :: rest) = .ok (f :: es, rest) := by
  obtain ⟨used, hused, hmore⟩ := (allExtend le_rfl).expression _ _ _ (expression_of_expression? h)
  obtain ⟨rfl, -⟩ := List.append_inj' hused rfl
  have hfront : frontKind (close :: rest) = frontKind [plain (.mark ")")] := congrArg some hclose
  obtain ⟨f, es, he, hes⟩ := items_of_expression hclose (hmore (close :: rest) hfront)
  exact ⟨f, es, he, hes []⟩

end Parser

/-- Rendered values are expressions, if the name of the table is none of the reserved words. -/
theorem isExpression_argument {table : String} (htable : isIdentifier table.toList = true) (htable' : table ∉ reserved)
    (owner : Option Session) {v : Native} (hnesting : v.nesting < Parser.depthBound) :
    IsExpression (Expression.argument table owner v) := by
  have hend : Grammar.Delimited [] := nofun
  have hscan : Token.scan (Expression.argument table owner v) = (v.tokens table owner).map plain :=
    (Token.scans_argument htable owner v hend).scan
  have hdeep {depth : Nat} (hdepth : depth ≤ 1) : Parser.tooDeep depth ((v.tokens table owner).map plain) = false := by
    have hroom : depth + v.nesting ≤ Parser.depthBound := by omega
    have hvalue := Parser.tooDeep_value table owner v hroom []
    rwa [List.append_nil] at hvalue
  refine ⟨?_, ⟨_, Parser.expression?_of_parses hscan (Parser.parses_value htable' owner v) (hdeep (Nat.zero_le 1))⟩, ?_⟩
  · rw [hscan]
    refine Token.Scans.passes fun rest => Token.scans_argument htable owner v fun c hc => ?_
    obtain rfl := Option.some.inj hc
    exact .inr (.inr rfl)
  · rw [hscan]
    exact hdeep le_rfl

/-! The capture of an expression. -/

private theorem scan_call {name : String} (hname : isIdentifier name.toList = true) {text : List Char}
    (htext : Token.Passes text (Token.scan text)) : ∃ newLine,
      Token.scan ("return ".toList ++ (name.toList ++ ('(' :: (text ++ [')', ';'])))) =
        plain (.word "return") :: plain (.word name) :: plain (.mark "(") ::
          (Token.scan text ++ [⟨.mark ")", newLine⟩, plain (.mark ";")]) := by
  have hfront : Scans ("return".toList ++ ' ' :: (name.toList ++ '(' :: []))
      [.word "return", .word name, .mark "("] (text ++ [')', ';']) :=
    scans_word' (by decide) (by decide +kernel) <| scans_blank <| scans_word' hname (by decide +kernel) <|
      scans_char (by decide) <| .nil _
  have hsplit : "return ".toList ++ (name.toList ++ ('(' :: (text ++ [')', ';']))) =
      ("return".toList ++ ' ' :: (name.toList ++ '(' :: [])) ++ (text ++ [')', ';']) := by simp
  obtain ⟨fuel, hfuel, hfirst⟩ := hfront [] _ le_rfl
  obtain ⟨newLine, fuel', hfuel', hsecond⟩ := htext [';'] _ fuel hfuel
  obtain ⟨n, rfl⟩ : ∃ n, fuel' = n + 2 := ⟨fuel' - 2, by simp at hfuel'; omega⟩
  have hend (found : List Token) : Token.scanFrom found false n [] = found.reverse := by cases n <;> rfl
  refine ⟨newLine, ?_⟩
  rw [Token.scan, hsplit, hfirst, hsecond, Token.scanFrom_mark (by decide), Token.scanFrom_mark (by decide), hend]
  simp [plain]

/-- The call of a name that is not reserved is a body of a function, whatever expression stands in its parentheses.
An expression with commas gives more than one argument. -/
theorem Program.ofBody_call {name : String} (hname : isIdentifier name.toList = true) (hname' : name ∉ reserved)
    {text : List Char} (htext : IsExpression text) : ∃ e es, Parser.expression? text = .ok (Parser.joined e es) ∧
      ofBody ("return ".toList ++ (name.toList ++ ('(' :: (text ++ [')', ';'])))) =
        .ok (.statements [.result (some (.call (.name name) (e :: es)))]) := by
  obtain ⟨newLine, hscan⟩ := scan_call hname htext.passes
  obtain ⟨e, he⟩ := htext.reads
  let close : Token := ⟨.mark ")", newLine⟩
  have hclose : close.kind = .mark ")" := rfl
  obtain ⟨f, es, rfl, hitems⟩ := Parser.items_of_expression? he hclose [plain (.mark ";"), Parser.bodyEnd]
  have hdeep : Parser.tooDeep 1 (Token.scan text ++ [close, plain (.mark ";"), Parser.bodyEnd]) = false := by
    rw [Parser.tooDeep_append fun _ => rfl, htext.shallow]
  have htokens : Token.scan text ++ [close, plain (.mark ";")] ++ [Parser.bodyEnd] =
      Token.scan text ++ [close, plain (.mark ";"), Parser.bodyEnd] := by simp
  have hstatements := Parser.statements_call hname' hdeep (by simp; omega) hitems
  refine ⟨f, es, he, ?_⟩
  rw [ofBody, hscan, List.cons_append, List.cons_append, List.cons_append, htokens, hstatements]
  rfl

/-! The root expression. -/

/-- The members of an expression, one after the other. -/
def Expr.members (e : Expr) (xs : List (List Char)) : Expr := xs.foldl (fun e x => .member e (String.ofList x)) e

namespace Parser

private theorem suffixes_dotted (xs : List (List Char)) {rest : List Token} (hrest : Stops rest) (e : Expr) (fuel : Nat) :
    suffixes true (fuel + xs.length + 1) e ((dotted xs).map plain ++ rest) = .ok (e.members xs, rest) := by
  induction xs generalizing e with
  | nil => exact suffixes_stop true hrest
  | cons x xs ih => exact ih (.member e (String.ofList x))

private theorem tooDeep_dotted (xs : List (List Char)) (depth : Nat) (rest : List Token) :
    tooDeep depth ((dotted xs).map plain ++ rest) = tooDeep depth rest := by
  induction xs with
  | nil => rfl
  | cons x xs ih => exact ih

private theorem length_dotted (xs : List (List Char)) : (dotted xs).length = 2 * xs.length := by
  induction xs with
  | nil => rfl
  | cons x xs ih =>
    rw [dotted, List.length_cons, List.length_cons, ih, List.length_cons]
    omega

private theorem parses_path {x : String} (hx : x ∉ reserved) (xs : List (List Char)) :
    Parses (plain (.word x) :: (dotted xs).map plain) ((Expr.name x).members xs) := by
  refine parses_of_operand (by simp) fun fuel rest hfuel hrest => ?_
  rw [List.length_cons, List.length_map, length_dotted] at hfuel
  obtain ⟨more, rfl⟩ : ∃ more, fuel = more + xs.length + 1 := ⟨fuel - xs.length - 1, by omega⟩
  exact operand_of_primary (prefixOp?_name hx) (primary_name hx _ _) (suffixes_dotted xs hrest _ more)

/-- An expression may stand in parentheses. -/
private theorem parses_parentheses {ts : List Token} {e : Expr} (h : Parses ts e) :
    Parses (plain (.mark "(") :: (ts ++ [plain (.mark ")")])) e := by
  refine parses_of_operand (by simp) fun fuel rest hfuel hrest => ?_
  simp only [List.length_cons, List.length_append, List.length_nil] at hfuel
  obtain ⟨fuel, rfl⟩ : ∃ n, fuel = n + 2 := ⟨fuel - 2, by omega⟩
  have hinner : expression (fuel + 1) (ts ++ plain (.mark ")") :: rest) = .ok (e, plain (.mark ")") :: rest) :=
    h.expression (.inr (.inl rfl)) rest (by omega)
  have hprimary : primary (fuel + 2) (plain (.mark "(") :: (ts ++ plain (.mark ")") :: rest)) = .ok (e, rest) := by
    have hopen : primary (fuel + 2) (plain (.mark "(") :: (ts ++ plain (.mark ")") :: rest)) =
        expression (fuel + 1) (ts ++ plain (.mark ")") :: rest) >>= fun r => (r.1, ·) <$> expect ")" r.2 := rfl
    rw [hopen, hinner]
    rfl
  rw [List.cons_append, List.append_assoc, List.singleton_append]
  exact operand_of_primary rfl hprimary (suffixes_stop true hrest)

/-- A dotted path in parentheses is read as a chain of members, if its first name is not reserved. -/
theorem expression?_path {x : List Char} {xs : List (List Char)} (hx : isIdentifier x = true)
    (hxs : ∀ y ∈ xs, isIdentifier y = true) (hname : String.ofList x ∉ reserved) :
    expression? ('(' :: (x ++ xs.flatMap ('.' :: ·)) ++ [')']) = .ok ((Expr.name (String.ofList x)).members xs) := by
  refine expression?_of_parses (scan_path hx hxs) (parses_parentheses (parses_path hname xs)) ?_
  exact tooDeep_dotted xs 1 [plain (.mark ")")]

end Parser

/-! The scripts that a configuration makes. -/

variable {c : Config}

/-- The reserved words that are expressions by themselves. -/
def standalone : List String := ["null", "true", "false", "this"]

private theorem statements_size {x : String} (hx : x ∉ reserved) :
    Parser.statements true ([.word "return", .word x, .mark ".", .word "length", .mark ";"].map plain ++
      [Parser.bodyEnd]) = .ok [.result (some (.member (.name x) "length"))] :=
  have hread := (Parser.parses_path hx ["length".toList]).expression (.inr (.inr rfl)) [Parser.bodyEnd] le_rfl
  Parser.statements_return rfl (by simp [dotted]) hread

private theorem statements_size_reserved : ∀ x ∈ reserved,
    (Parser.statements true ([.word "return", .word x, .mark ".", .word "length", .mark ";"].map plain ++
      [Parser.bodyEnd])).isOk = standalone.contains x := by
  decide +kernel

private theorem scan_size (htable : isIdentifier c.tableName.toList = true) :
    Token.scan (Bootstrap.size c).toList =
      [.word "return", .word c.tableName, .mark ".", .word "length", .mark ";"].map plain := by
  have hsize : Bootstrap.size c = "return" ++ (" " ++ (c.tableName ++ ("." ++ ("length" ++ ";")))) := by
    have hfront : "return " = "return" ++ " " := rfl
    have hback : ".length;" = "." ++ ("length" ++ ";") := rfl
    rw [Bootstrap.size, hfront, hback, String.append_assoc, String.append_assoc]
  have hscans : Scans ("return".toList ++ ' ' :: (c.tableName.toList ++ '.' :: ("length".toList ++ ';' :: []))) _ [] :=
    scans_word' (by decide) (by decide +kernel) <| scans_blank <| scans_word' htable (by decide +kernel) <|
      scans_member rfl <| scans_word' (by decide) (by decide +kernel) <| scans_char (by decide) <| .nil []
  rw [hsize]
  simp only [String.toList_append]
  exact hscans.scan

/-- The script that asks for the length of the table is a body of a function, unless the table has a reserved word for
its name that is no expression. -/
theorem Program.ofBody_size_iff (htable : isIdentifier c.tableName.toList = true) :
    (∃ p, ofBody (Bootstrap.size c).toList = .ok p) ↔ (c.tableName ∈ reserved → c.tableName ∈ standalone) := by
  rw [ofBody, scan_size htable]
  by_cases hreserved : c.tableName ∈ reserved
  · have hok := statements_size_reserved c.tableName hreserved
    have hiff : (∃ p, (Parser.statements true ([.word "return", .word c.tableName, .mark ".", .word "length",
        .mark ";"].map plain ++ [Parser.bodyEnd])).map Program.statements = .ok p) ↔
          standalone.contains c.tableName = true := by
      rw [← hok]
      cases Parser.statements true _ with
      | error f => simp [Except.map, Except.isOk, Except.toBool]
      | ok body => simp [Except.map, Except.isOk, Except.toBool]
    rw [hiff, List.contains_iff_mem]
    exact ⟨fun h _ => h, fun h => h hreserved⟩
  · rw [statements_size hreserved]
    exact ⟨fun _ h => absurd h hreserved, fun _ => ⟨_, rfl⟩⟩

example : ¬∃ p, Program.ofBody (Bootstrap.size { tableName := "default" }).toList = .ok p := by
  rw [Program.ofBody_size_iff (by decide)]
  decide

theorem Program.ofBody_size (htable : isIdentifier c.tableName.toList = true) (htable' : c.tableName ∉ reserved) :
    ofBody (Bootstrap.size c).toList = .ok (.statements [.result (some (.member (.name c.tableName) "length"))]) := by
  rw [ofBody, scan_size htable, statements_size htable']
  rfl

end Script

open Bootstrap (Slot)
open Script (Expr IsExpression Program)

/-- The first name of the root expression. -/
def Config.rootName (c : Config) : String := String.ofList (c.rootExpression.toList.takeWhile (· != '.'))

/-- The names that stand bare in the scripts of a bridge are names of variables, and the root expression stands in them
as it is. -/
structure Config.Bare (c : Config) : Prop where
  table : c.tableName ∉ reserved
  converter : c.converterName ∉ reserved
  rootName : c.rootName ∉ reserved
  root : ∀ s ∈ Slot.root.later, ¬s.placeholder <:+: Slot.root.value c

example : ({} : Config).Bare := ⟨by decide, by decide, by decide, by decide⟩

variable {c : Config}

/-- The root expression in its parentheses is an expression. -/
theorem Config.rootExpr_ok (hroot : isDottedPath c.rootExpression.toList = true) (hname : c.rootName ∉ reserved) :
    ∃ root, Script.rootExpr c = .ok root := by
  obtain ⟨x, xs, hpath, hx, hxs⟩ := names_of_isDottedPath hroot
  have hfirst : c.rootExpression.toList.takeWhile (· != '.') = x := by
    have hplain : ∀ d ∈ x, (d != '.') = true := fun d hd => by
      have hpart : Script.isWordPart d = true := (Script.isWord_of_isIdentifier hx).part d hd
      have hpoint : Script.isWordPart '.' = false := by decide +kernel
      rw [bne_iff_ne]
      rintro rfl
      rw [hpoint] at hpart
      cases hpart
    rw [hpath, List.takeWhile_append_of_pos hplain]
    cases xs <;> simp
  rw [rootName, hfirst] at hname
  have hvalue : Slot.root.value c = '(' :: (x ++ xs.flatMap ('.' :: ·)) ++ [')'] := by rw [← hpath]; rfl
  rw [Script.rootExpr, hvalue]
  exact ⟨_, Script.Parser.expression?_path hx hxs hname⟩

/-- The installation in the installing script, with what the slots hold in the end. -/
def Config.installation (c : Config) (root : Expr) : Script.Installation where
  root := root
  tag := String.ofList (Slot.tag.final c)
  scheme := String.ofList (Slot.scheme.final c)
  table := String.ofList (Slot.table.final c)
  converter := String.ofList (Slot.converter.final c)

private theorem installation?_final (hsound : c.Sound) (rest : List Char) :
    Script.installation? ((Bootstrap.install c).toList ++ rest) =
      some ((Script.Parser.expression? (Slot.root.final c)).map c.installation, rest) := by
  rw [Bootstrap.install_toList_final, Script.installation?_fill (Bootstrap.isBare_final hsound)]
  rfl

/-- The installing script is read exactly where an expression stands in the slot of the root in the end. -/
theorem Config.Sound.ofScript_install (hsound : c.Sound) : Program.ofScript (Bootstrap.install c).toList =
    (Script.Parser.expression? (Slot.root.final c)).map fun root => .install (c.installation root) := by
  have hinstallation := installation?_final hsound []
  rw [List.append_nil] at hinstallation
  rw [Program.ofScript_of_installation? hinstallation]
  cases Script.Parser.expression? (Slot.root.final c) <;> rfl

theorem Config.Sound.ofScript_guarded (hsound : c.Sound) : Program.ofScript (Bootstrap.guarded c).toList =
    (Script.Parser.expression? (Slot.root.final c)).map fun root =>
      .installUnless (Script.isArrayExpr c.tableName) (c.installation root) := by
  rw [Program.ofScript_guarded_of_installation? hsound (installation?_final hsound Script.guardEnd)]
  cases Script.Parser.expression? (Slot.root.final c) <;> rfl

/-- What a session captures of an expression is a call of the converter. -/
theorem Session.ofBody_captureScript {s : Session} (hsound : s.config.Sound) (hconverter : s.config.converterName ∉ reserved)
    {statement : String} (hstatement : IsExpression statement.toList) :
    ∃ e es, Script.Parser.expression? statement.toList = .ok (Script.Parser.joined e es) ∧
      Program.ofBody (s.captureScript statement).toList =
        .ok (.statements [.result (some (.call (.name s.config.converterName) (e :: es)))]) := by
  have htext : (s.captureScript statement).toList =
      "return ".toList ++ (s.config.converterName.toList ++ ('(' :: (statement.toList ++ [')', ';']))) := by
    simp [captureScript, String.toList_append]
  rw [htext]
  exact Program.ofBody_call hsound.converter hconverter hstatement

/-- A slot of the table is an expression. -/
theorem Config.isExpression_reference (hsound : c.Sound) (hbare : c.Bare) (h : Handle) :
    IsExpression (Expression.reference c.tableName h) := by
  let r : Reference := { session := default, handle := h, capability := "", generation := 0 }
  have hreference : Expression.reference c.tableName h = Expression.argument c.tableName none (.ref r) := rfl
  have hnesting : (Native.ref r).nesting < Script.Parser.depthBound := Nat.le_of_ble_eq_true rfl
  rw [hreference]
  exact Script.isExpression_argument hsound.table hbare.table none hnesting

/-- All scripts of a bridge are scripts, if the names that stand bare in them are names of variables: those that
install it and ask about it, its references, and the captures of expressions. -/
theorem Config.Bare.scripts_read (hbare : c.Bare) (hvalid : c.validate = .ok ()) :
    (∃ root, Script.rootExpr c = .ok root ∧
      Program.ofScript (Bootstrap.install c).toList = .ok (.install (c.installation root)) ∧
      Program.ofScript (Bootstrap.guarded c).toList =
        .ok (.installUnless (Script.isArrayExpr c.tableName) (c.installation root))) ∧
    Program.ofBody (Bootstrap.presence c).toList = .ok (.statements [.result (some (Script.presenceExpr c))]) ∧
    Program.ofBody (Bootstrap.size c).toList =
      .ok (.statements [.result (some (.member (.name c.tableName) "length"))]) ∧
    (∀ h, IsExpression (Expression.reference c.tableName h)) ∧
    ∀ s : Session, s.config = c → ∀ statement : String, IsExpression statement.toList →
      ∃ e es, Script.Parser.expression? statement.toList = .ok (Script.Parser.joined e es) ∧
        Program.ofBody (s.captureScript statement).toList =
          .ok (.statements [.result (some (.call (.name c.converterName) (e :: es)))]) := by
  have hsound := Config.sound_of_validate hvalid
  refine ⟨?_, Program.ofBody_presence hsound, Program.ofBody_size hsound.table hbare.table,
    Config.isExpression_reference hsound hbare, ?_⟩
  · obtain ⟨root, hroot⟩ := Config.rootExpr_ok hsound.root hbare.rootName
    have hfinal : Script.Parser.expression? (Slot.root.final c) = .ok root := by
      rwa [Slot.final_eq_value hbare.root]
    exact ⟨root, hroot, by rw [hsound.ofScript_install, hfinal]; rfl, by rw [hsound.ofScript_guarded, hfinal]; rfl⟩
  · rintro s rfl statement hstatement
    exact Session.ofBody_captureScript hsound hbare.converter hstatement

end ScriptBridge
