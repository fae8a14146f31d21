import ScriptBridge.Proofs.Capturing
import ScriptBridge.Proofs.Installing
import ScriptBridge.Proofs.RootPaths
import ScriptBridge.Proofs.Templates

/-! The scripts of a bridge as the programs that they are read as. The names of a valid configuration and its root
expression stand in the slots of the installing script as they are, where none of them holds the name of a slot. -/
namespace ScriptBridge

open Text (Piece Laid fill replaceSlots slotsOf)

/-- Characters that do not stand for themselves between quotes, or end a slot, or end a text of the engine. -/
def specialChars : List Char := ['\'', ']', '\\', '\n', '\r', Char.ofNat 0]

/-- A text in which every character stands for itself. -/
def IsBare (text : List Char) : Prop := ∀ c ∈ text, c ∉ specialChars

namespace IsBare

variable {as bs : List Char} {c : Char}

theorem nil : IsBare [] := nofun

theorem append (has : IsBare as) (hbs : IsBare bs) : IsBare (as ++ bs) := fun c hc =>
  (List.mem_append.1 hc).elim (has c) (hbs c)

theorem cons (hc : c ∉ specialChars) (has : IsBare as) : IsBare (c :: as) := fun d hd => by
  rcases List.mem_cons.1 hd with rfl | hd
  · exact hc
  · exact has d hd

theorem of_identifier (has : isIdentifier as = true) : IsBare as := by
  intro c hc hspecial
  have hpart : isIdentifierPart c = true := by
    cases as with
    | nil => cases hc
    | cons d rest =>
      simp only [isIdentifier, Bool.and_eq_true, List.all_eq_true] at has
      rcases List.mem_cons.1 hc with rfl | hc
      · have hstart := has.1
        simp only [isIdentifierStart, isIdentifierPart, Char.isAlphanum, Bool.or_eq_true] at hstart ⊢
        tauto
      · exact has.2 c hc
  have hnone : specialChars.all (!isIdentifierPart ·) = true := by decide
  have hnot := List.all_eq_true.1 hnone c hspecial
  rw [hpart] at hnot
  cases hnot

theorem of_dottedPath (has : isDottedPath as = true) : IsBare as := by
  obtain ⟨x, xs, rfl, hx, hxs⟩ := names_of_isDottedPath has
  refine (of_identifier hx).append fun c hc => ?_
  obtain ⟨y, hy, hc⟩ := List.mem_flatMap.1 hc
  exact cons (by decide) (of_identifier (hxs y hy)) c hc

theorem of_all (has : as.all (!specialChars.contains ·) = true) : IsBare as := fun c hc hspecial => by
  simpa [hspecial] using List.all_eq_true.1 has c hc

theorem nullFree (has : IsBare as) : NullFree as := fun c hc hzero => by
  obtain rfl : c = Char.ofNat 0 := by rw [← hzero, Char.ofNat_toNat]
  exact has _ hc (by decide)

end IsBare

namespace Bootstrap

open Script (Program Installation Expr Parser.expression?)

/-- No name of a slot occurs in what the slots are filled with. -/
def Unambiguous (c : Config) : Prop := ∀ s t : Slot, ¬s.placeholder <:+: t.value c

instance (c : Config) : Decidable (Unambiguous c) :=
  decidable_of_iff (∀ s ∈ Slot.order, ∀ t ∈ Slot.order, ¬s.placeholder <:+: t.value c) <| by
    have hall (s : Slot) : s ∈ Slot.order := by cases s <;> decide
    exact ⟨fun h s t => h s (hall s) t (hall t), fun h s _ t _ => h s t⟩

/-- The characters of the texts of the template. -/
def inner (c : Char) : Bool := c != '_' && c.toNat != 0

private def Inner (s : String) : Prop := s.toList.all inner = true

private theorem inner_append {s t : String} : Inner (s ++ t) ↔ Inner s ∧ Inner t := by
  simp [Inner, String.toList_append]

private theorem inner_ofList {cs : List Char} (hcs : cs.all inner = true) : Inner (String.ofList cs) := by
  simpa [Inner] using hcs

/-- The characters that stand behind slots. -/
def closing : List Char := ['\'', ']']

private def Begins (ds : List Char) (s : String) : Prop := ∃ d cs, s.toList = d :: cs ∧ d ∈ ds

private theorem begins_append {ds : List Char} {s t : String} (hs : Begins ds s) : Begins ds (s ++ t) := by
  obtain ⟨d, cs, hs, hd⟩ := hs
  exact ⟨d, cs ++ t.toList, by rw [String.toList_append, hs]; rfl, hd⟩

private theorem begins_ofList {ds : List Char} {d : Char} {cs : List Char} (hd : d ∈ ds) :
    Begins ds (String.ofList (d :: cs)) := ⟨d, cs, String.toList_ofList, hd⟩

private theorem laid_text {s : String} {pieces : List (Piece Slot)} (hs : Inner s) (hlaid : Laid inner closing pieces) :
    Laid inner closing (text s :: pieces) := ⟨hs, hlaid⟩

private theorem laid_slot {slot : Slot} {s : String} {pieces : List (Piece Slot)} (hs : Begins closing s)
    (hlaid : Laid inner closing (text s :: pieces)) : Laid inner closing (.slot slot :: text s :: pieces) := by
  obtain ⟨d, cs, hs, hd⟩ := hs
  exact ⟨⟨d, cs, pieces, by rw [text, hs], hd⟩, hlaid⟩

theorem laid_template : Laid inner closing template := by
  simp only [template, tagger, registrar, converter, List.cons_append, List.nil_append]
  repeat' first
    | exact trivial
    | apply laid_slot
    | apply laid_text
  all_goals first
    | simp only [inner_append]
      and_intros <;> exact inner_ofList rfl
    | exact inner_ofList rfl
    | repeat with_reducible apply begins_append
      exact begins_ofList (by decide)

theorem mem_slotsOf_template (s : Slot) : s ∈ slotsOf template := by
  have hslots : slotsOf template = [.root, .tag, .tag, .tag, .tag, .tag, .scheme, .table, .converter] := rfl
  rw [hslots]
  cases s <;> decide

/-- What stands for itself does not end a slot. -/
theorem not_mem_of_closing {text : List Char} (htext : IsBare text) : ∀ d ∈ closing, d ∉ text := by
  have hspecial : closing ⊆ specialChars := List.cons_subset_cons _ (List.subset_append_left [']'] _)
  exact fun d hd hmem => htext d hmem (hspecial hd)

theorem template_head : ∃ text pieces, template = .literal ('(' :: text) :: pieces := by
  have hbegins : Begins ['('] ("(function (global) \x7b\n" ++ "  var table = [") :=
    begins_append (begins_ofList (by decide))
  obtain ⟨d, cs, htext, hd⟩ := hbegins
  obtain rfl := List.mem_singleton.1 hd
  exact ⟨cs, _, congrArg (fun text => Piece.literal text :: _) htext⟩

/-- What the slots are filled with stands for itself. -/
theorem isBare_value {c : Config} (hsound : c.Sound) (s : Slot) : IsBare (s.value c) := by
  cases s with
  | root => exact .append (.cons (by decide) (.of_dottedPath hsound.root)) (.cons (by decide) .nil)
  | tag => exact .of_identifier hsound.tag
  | scheme =>
    have hscheme : IsBare Handle.scheme := .of_all (by decide)
    exact hscheme
  | table => exact .of_identifier hsound.table
  | converter => exact .of_identifier hsound.converter

namespace Slot

/-- The slots that are filled behind a slot. -/
def later : Slot → List Slot
  | root => [tag, scheme, table, converter]
  | tag => [scheme, table, converter]
  | scheme => [table, converter]
  | table => [converter]
  | converter => []

/-- What a slot holds in the end: its value, in which the names of later slots are replaced like any other. -/
def final (c : Config) (s : Slot) : List Char := replaceSlots placeholder (value c) s.later (s.value c)

theorem final_eq_value {c : Config} {s : Slot} (hlater : ∀ t ∈ s.later, ¬t.placeholder <:+: s.value c) :
    s.final c = s.value c :=
  Text.replaceSlots_of_not_infix hlater

theorem order_split (s : Slot) :
    ∃ earlier, order = earlier ++ s :: s.later ∧ ∀ t ∈ earlier, ¬t.placeholder <:+: s.placeholder := by
  cases s with
  | root => exact ⟨[], rfl, nofun⟩
  | tag => exact ⟨[root], rfl, by decide⟩
  | scheme => exact ⟨[root, tag], rfl, by decide⟩
  | table => exact ⟨[root, tag, scheme], rfl, by decide⟩
  | converter => exact ⟨[root, tag, scheme, table], rfl, by decide⟩

end Slot

/-- The installing script is the template with its slots filled, each with what it holds in the end. -/
theorem install_toList_final (c : Config) : (install c).toList = fill (Slot.final c) template := by
  have hclosing : Slot.order.all (fun s => closing.all (!s.placeholder.contains ·)) = true := by decide
  have hname : ∀ s ∈ Slot.order, s.placeholder.head? = some '_' ∧ ∀ d ∈ closing, d ∉ s.placeholder := fun s hs => by
    refine ⟨by cases s <;> decide, fun d hd hmem => ?_⟩
    simpa [hmem] using List.all_eq_true.1 (List.all_eq_true.1 hclosing s hs) d hd
  have hfinal : ∀ s : Slot, replaceSlots Slot.placeholder (Slot.value c) Slot.order s.placeholder = s.final c := by
    intro s
    obtain ⟨earlier, horder, hearlier⟩ := s.order_split
    rw [horder]
    exact Text.replaceSlots_name hearlier (by cases s <;> decide)
  rw [install, String.toList_ofList, templateText, Text.replaceSlots_fill laid_template (by decide) hname]
  simp only [hfinal]

/-- The installing script is the template with all its slots filled at once. -/
theorem install_toList {c : Config} (hnames : Unambiguous c) :
    (install c).toList = fill (Slot.value c) template := by
  have hfinal : Slot.final c = Slot.value c := funext fun s => Slot.final_eq_value fun t _ => hnames t s
  rw [install_toList_final, hfinal]

end Bootstrap

namespace Script

open Bootstrap (Unambiguous)

variable {c : Config} {text : List Char}

private theorem stringRest_bare (htext : IsBare text) (rest : List Char) :
    Token.stringRest '\'' 0 (text ++ '\'' :: rest) = .ok (Text.units text, rest) := by
  induction text with
  | nil => rfl
  | cons d text ih =>
    have hd := htext d List.mem_cons_self
    have hne {e : Char} (he : e ∈ specialChars) : d ≠ e := (ne_of_mem_of_not_mem he hd).symm
    rw [List.cons_append, Token.stringRest, if_neg (hne (by decide)), if_neg (hne (by decide)),
      if_neg (by simp [hne (e := '\n') (by decide), hne (e := '\r') (by decide)]),
      ih fun e he => htext e (List.mem_cons_of_mem d he)]
    rfl

theorem unquoted?_bare (htext : IsBare text) : unquoted? text = some (String.ofList text) := by
  rw [unquoted?, stringRest_bare htext []]
  simp [Text.ofUnits?_units]

/-- The root expression of a configuration, in its parentheses. -/
def rootExpr (c : Config) : Except SyntaxFault Expr := Parser.expression? (Bootstrap.Slot.root.value c)

/-- What a template is filled with makes an installation, if it stands for itself. -/
theorem installation?_fill {f : Bootstrap.Slot → List Char} (hf : ∀ s, IsBare (f s)) (rest : List Char) :
    installation? (fill f Bootstrap.template ++ rest) =
      some ((Parser.expression? (f .root)).map fun root => ⟨root, String.ofList (f .tag), String.ofList (f .scheme),
        String.ofList (f .table), String.ofList (f .converter)⟩, rest) := by
  have hclosing : ∀ s, ∀ d ∈ Bootstrap.closing, d ∉ f s := fun s => Bootstrap.not_mem_of_closing (hf s)
  have hcaptured (s : Bootstrap.Slot) := captured?_of_mem (f := f) (Bootstrap.mem_slotsOf_template s)
  have hunquoted (s : Bootstrap.Slot) : (some (f s)).bind unquoted? = some (String.ofList (f s)) := unquoted?_bare (hf s)
  rw [installation?, captures?_fill Bootstrap.laid_template hclosing]
  simp only [Option.bind_eq_bind, Option.bind_some, hcaptured, hunquoted]
  rfl

theorem installation?_install (hsound : c.Sound) (hnames : Unambiguous c) (rest : List Char) :
    installation? ((Bootstrap.install c).toList ++ rest) = some ((rootExpr c).map (Installation.of c), rest) := by
  rw [Bootstrap.install_toList hnames, installation?_fill (Bootstrap.isBare_value hsound)]
  simp only [Bootstrap.Slot.value, String.ofList_toList]
  rfl

/-- A text that is an installation and nothing else is read as it. -/
theorem Program.ofScript_of_installation? {i : Except SyntaxFault Installation} (h : installation? text = some (i, [])) :
    ofScript text = i.map .install := by
  rw [ofScript, h]

/-- The installing script is read as the installation that the configuration describes. -/
theorem Program.ofScript_install (hsound : c.Sound) (hnames : Unambiguous c) :
    ofScript (Bootstrap.install c).toList = (rootExpr c).map fun root => .install (.of c root) := by
  have hinstallation := installation?_install hsound hnames []
  rw [List.append_nil] at hinstallation
  rw [ofScript_of_installation? hinstallation]
  cases rootExpr c <;> rfl

/-- The value of a global name, as the scripts of a bridge ask for it. -/
def globalExpr (x : String) : Expr := .index (.name "globalThis") (.constant (.text x))

/-- The question whether a global name holds an array. -/
def isArrayExpr (x : String) : Expr := .call (.member (.name "Array") "isArray") [globalExpr x]

/-- The question for a table and a converter. -/
def presenceExpr (c : Config) : Expr := .both (isArrayExpr c.tableName)
  (.equals true (.typeOf (globalExpr c.converterName)) (.constant (.text "function")))

theorem guarded_toList (c : Config) : (Bootstrap.guarded c).toList =
    guardStart ++ (c.tableName.toList ++ (guardMiddle ++ ((Bootstrap.install c).toList ++ guardEnd))) := by
  have hstart : guardStart = "if (!Array.isArray(".toList ++ "globalThis['".toList := by
    have hjoined : "if (!Array.isArray(globalThis['" = "if (!Array.isArray(" ++ "globalThis['" := rfl
    exact (congrArg String.toList hjoined).trans String.toList_append
  have hmiddle : guardMiddle = "']".toList ++ ")) \x7b\n".toList := by
    have hjoined : "'])) \x7b\n" = "']" ++ ")) \x7b\n" := rfl
    exact (congrArg String.toList hjoined).trans String.toList_append
  have hguarded : Bootstrap.guarded c = "if (!Array.isArray(" ++ Bootstrap.globalNamed c.tableName ++ ")) \x7b\n" ++
      Bootstrap.install c ++ "\n\x7d" := rfl
  simp only [hguarded, hstart, hmiddle, guardEnd, Bootstrap.globalNamed, String.toList_append, List.append_assoc]

private theorem afterText?_append (front text : List Char) : afterText? front (front ++ text) = some text := by
  rw [afterText?, if_pos (List.isPrefixOf_iff_prefix.2 (List.prefix_append front text)), List.drop_left]

private theorem captures?_template_guardStart (rest : List Char) :
    captures? Bootstrap.template (guardStart ++ rest) = none := by
  obtain ⟨text, pieces, htemplate⟩ := Bootstrap.template_head
  rw [htemplate, captures?]
  rfl

/-- The guarded script is read as the same installation, under the condition that there is no table. -/
theorem Program.ofScript_guarded_of_installation? (hsound : c.Sound) {i : Except SyntaxFault Installation}
    (h : installation? ((Bootstrap.install c).toList ++ guardEnd) = some (i, guardEnd)) :
    ofScript (Bootstrap.guarded c).toList = i.map (.installUnless (isArrayExpr c.tableName)) := by
  have hname : ∀ d ∈ c.tableName.toList, (d != '\'') = true := fun d hd => by
    have hbare := IsBare.of_identifier hsound.table d hd
    simp only [bne_iff_ne]
    rintro rfl
    exact hbare (by decide)
  have htake (rest : List Char) : (c.tableName.toList ++ (guardMiddle ++ rest)).takeWhile (· != '\'') =
      c.tableName.toList := by
    rw [List.takeWhile_append_of_pos hname]
    have hmiddle : (guardMiddle ++ rest).takeWhile (· != '\'') = [] := rfl
    rw [hmiddle, List.append_nil]
  have hguard : guard? (Bootstrap.guarded c).toList =
      some (isArrayExpr c.tableName, (Bootstrap.install c).toList ++ guardEnd) := by
    rw [guarded_toList, guard?, afterText?_append]
    simp only [Option.bind_eq_bind, Option.bind_some, htake, unquoted?_bare (.of_identifier hsound.table), List.drop_left,
      afterText?_append, String.ofList_toList]
    rfl
  have hnone : installation? (Bootstrap.guarded c).toList = none := by
    rw [guarded_toList, installation?, captures?_template_guardStart]
    rfl
  rw [ofScript, hnone, guarded?, hguard]
  simp only [h, beq_self_eq_true, if_true]

theorem Program.ofScript_guarded (hsound : c.Sound) (hnames : Unambiguous c) :
    ofScript (Bootstrap.guarded c).toList =
      (rootExpr c).map fun root => .installUnless (isArrayExpr c.tableName) (.of c root) := by
  rw [ofScript_guarded_of_installation? hsound (installation?_install hsound hnames guardEnd)]
  cases rootExpr c <;> rfl

section Presence

open Token (Scans scans_mark scans_point)

theorem scans_word' {x : String} (hx : isIdentifier x.toList = true) {d : Char} (hd : isWordPart d = false)
    {text rest : List Char} {ks : List TokenKind} (htext : Scans (d :: text) ks rest) :
    Scans (x.toList ++ d :: text) (.word x :: ks) rest := (scans_name hx hd _).append htext

theorem scans_blank {text rest : List Char} {ks : List TokenKind} (htext : Scans text ks rest) :
    Scans (' ' :: text) ks rest := (Scans.blank (by decide) (by decide) _).append htext

theorem scans_char {c : Char} (hc : c ∈ Token.argumentMarks) {text rest : List Char} {ks : List TokenKind}
    (htext : Scans text ks rest) : Scans (c :: text) (.mark (String.singleton c) :: ks) rest :=
  (scans_mark hc _).append htext

theorem scans_member {text rest : List Char} {ks : List TokenKind}
    (hdigit : (text ++ rest).head?.any Char.isDigit = false) (htext : Scans text ks rest) :
    Scans ('.' :: text) (.mark "." :: ks) rest := (scans_point hdigit).append htext

theorem scans_both {text rest : List Char} {ks : List TokenKind} (htext : Scans text ks rest) :
    Scans ('&' :: '&' :: ' ' :: text) (.mark "&&" :: ks) rest :=
  (Token.scans_operator (by decide) ['&'] (fun _ => rfl) rfl (text ++ rest)).append (scans_blank htext)

theorem scans_same {text rest : List Char} {ks : List TokenKind} (htext : Scans text ks rest) :
    Scans ('=' :: '=' :: '=' :: ' ' :: text) (.mark "===" :: ks) rest :=
  (Token.scans_operator (by decide) ['=', '='] (fun _ => rfl) rfl (text ++ rest)).append (scans_blank htext)

private theorem scans_quotedName {x : String} (hx : isIdentifier x.toList = true) {text rest : List Char}
    {ks : List TokenKind} (htext : Scans text ks rest) :
    Scans ('\'' :: (x.toList ++ '\'' :: text)) (.string (.text x) :: ks) rest := by
  have hquoted : Scans ('\'' :: (x.toList ++ ['\''])) [.string (.text x)] (text ++ rest) := by
    refine .token (by decide) (by decide) ?_
    rw [Token.first, if_pos (.inl rfl), List.append_assoc, List.singleton_append, stringRest_bare (.of_identifier hx)]
    simp [Content.ofUnits, Text.ofUnits?_units]
  simpa using hquoted.append htext

private theorem scans_global {x : String} (hx : isIdentifier x.toList = true) {text rest : List Char}
    {ks : List TokenKind} (htext : Scans text ks rest) :
    Scans ((Bootstrap.globalNamed x).toList ++ text)
      (.word "globalThis" :: .mark "[" :: .string (.text x) :: .mark "]" :: ks) rest := by
  have hglobal : (Bootstrap.globalNamed x).toList ++ text =
      "globalThis".toList ++ '[' :: '\'' :: (x.toList ++ '\'' :: ']' :: text) := by
    have hfront : "globalThis['" = "globalThis" ++ "['" := rfl
    simp only [Bootstrap.globalNamed, hfront, String.toList_append, List.append_assoc]
    rfl
  rw [hglobal]
  exact scans_word' (by decide) (by decide +kernel) <| scans_char (by decide) <| scans_quotedName hx <|
    scans_char (by decide) htext

/-- The script that asks for a table and a converter is read as the question for both. -/
theorem Program.ofBody_presence (hsound : c.Sound) :
    ofBody (Bootstrap.presence c).toList = .ok (.statements [.result (some (presenceExpr c))]) := by
  have hpresence : Bootstrap.presence c = "return Array.isArray(" ++ Bootstrap.globalNamed c.tableName ++
      ") && typeof " ++ Bootstrap.globalNamed c.converterName ++ " === 'function';" := rfl
  have hfront : "return Array.isArray(" = "return" ++ (" " ++ ("Array" ++ ("." ++ ("isArray" ++ "(")))) := rfl
  have hmiddle : ") && typeof " = ") && " ++ ("typeof" ++ " ") := rfl
  have hend : " === 'function';" = " === '" ++ ("function" ++ "';") := rfl
  have htext : (Bootstrap.presence c).toList = "return".toList ++ ' ' :: ("Array".toList ++ '.' ::
      ("isArray".toList ++ '(' :: ((Bootstrap.globalNamed c.tableName).toList ++ ')' :: ' ' :: '&' :: '&' :: ' ' ::
        ("typeof".toList ++ ' ' :: ((Bootstrap.globalNamed c.converterName).toList ++ ' ' :: '=' :: '=' :: '=' :: ' ' ::
          '\'' :: ("function".toList ++ '\'' :: [';'])))))) := by
    simp only [hpresence, hfront, hmiddle, hend, String.toList_append, List.append_assoc]
    rfl
  have hscans : Scans (Bootstrap.presence c).toList
      (.word "return" :: .word "Array" :: .mark "." :: .word "isArray" :: .mark "(" ::
        .word "globalThis" :: .mark "[" :: .string (.text c.tableName) :: .mark "]" :: .mark ")" :: .mark "&&" ::
        .word "typeof" :: .word "globalThis" :: .mark "[" :: .string (.text c.converterName) :: .mark "]" ::
        .mark "===" :: .string (.text "function") :: .mark ";" :: []) [] := by
    rw [htext]
    exact scans_word' (by decide) (by decide +kernel) <| scans_blank <|
      scans_word' (by decide) (by decide +kernel) <| scans_member rfl <|
      scans_word' (by decide) (by decide +kernel) <| scans_char (by decide) <|
      scans_global hsound.table <| scans_char (by decide) <| scans_blank <| scans_both <|
      scans_word' (by decide) (by decide +kernel) <| scans_blank <| scans_global hsound.converter <| scans_blank <|
      scans_same <| scans_quotedName (by decide) <| scans_char (by decide) <| .nil []
  rw [ofBody, hscans.scan]
  rfl

end Presence

end Script

namespace Bootstrap

open Script (guardStart guardMiddle guardEnd)

variable {c : Config}

private theorem nullFree_fill {f : Slot → List Char} {pieces : List (Piece Slot)} (hlaid : Laid inner closing pieces)
    (hf : ∀ s, NullFree (f s)) : NullFree (fill f pieces) := by
  induction pieces with
  | nil => exact .nil
  | cons piece pieces ih =>
    refine .append ?_ (ih (by cases piece <;> exact hlaid.2))
    cases piece with
    | literal text =>
      intro d hd hzero
      have hinner := List.all_eq_true.1 hlaid.1 d hd
      simp [inner, hzero] at hinner
    | slot s => exact hf s

theorem nullFree_install (hsound : c.Sound) (hnames : Unambiguous c) : NullFree (install c).toList := by
  rw [install_toList hnames]
  exact nullFree_fill laid_template fun s => (isBare_value hsound s).nullFree

theorem nullFree_guarded (hsound : c.Sound) (hnames : Unambiguous c) : NullFree (guarded c).toList := by
  have hstart : NullFree guardStart := .of_all (by decide)
  have hmiddle : NullFree guardMiddle := .of_all (by decide)
  have hend : NullFree guardEnd := .of_all (by decide)
  rw [Script.guarded_toList]
  exact hstart.append ((NullFree.of_identifier hsound.table).append
    (hmiddle.append ((nullFree_install hsound hnames).append hend)))

theorem nullFree_presence (hsound : c.Sound) : NullFree (presence c).toList := by
  have hglobal {x : String} (hx : isIdentifier x.toList = true) : NullFree (globalNamed x).toList := by
    have hfront : NullFree "globalThis['".toList := .of_all (by decide)
    have hback : NullFree "']".toList := .of_all (by decide)
    simp only [globalNamed, String.toList_append]
    exact (hfront.append (.of_identifier hx)).append hback
  have hfront : NullFree "return Array.isArray(".toList := .of_all (by decide)
  have hmiddle : NullFree ") && typeof ".toList := .of_all (by decide)
  have hend : NullFree " === 'function';".toList := .of_all (by decide)
  have hpresence : presence c = "return Array.isArray(" ++ globalNamed c.tableName ++ ") && typeof " ++
      globalNamed c.converterName ++ " === 'function';" := rfl
  simp only [hpresence, String.toList_append]
  exact (((hfront.append (hglobal hsound.table)).append hmiddle).append (hglobal hsound.converter)).append hend

end Bootstrap

namespace Embedded

open Script

variable {c : Config} {h : Heap}

/-- What the engine does with a script that was read as a program. -/
def installed (i : Expr → Program) (root : Except SyntaxFault Expr) (h : Heap) : Reply Heap Unit :=
  match root with
  | .error f => raised h f.message
  | .ok root => reply h ((i root).run .top) fun _ _ => .ok ()

private theorem execute_read {script : String} {i : Expr → Program} {root : Except SyntaxFault Expr}
    (hread : Program.ofScript script.toList = root.map i) (hnull : NullFree script.toList) (h : Heap) :
    engine.execute script h = installed i root h := by
  change launch _ (Program.ofScript script.toList) .top (fun _ _ => .ok ()) h = _
  unfold launch
  rw [hnull.nullAt?, hread]
  cases root <;> rfl

private theorem evaluate_read {script : String} {e : Expr}
    (hread : Program.ofBody script.toList = .ok (.statements [.result (some e)])) (hnull : NullFree script.toList)
    (h : Heap) : engine.evaluate script h = reply h (e.evaluate .body) toWire := by
  change launch (wrap script.toList) (Program.ofBody script.toList) .body toWire h = _
  unfold launch
  rw [hnull.nullAt?_wrap, hread]
  rfl

theorem execute_install (hsound : c.Sound) (hnames : Bootstrap.Unambiguous c) (h : Heap) :
    engine.execute (Bootstrap.install c) h = installed (fun root => .install (.of c root)) (rootExpr c) h :=
  execute_read (Program.ofScript_install hsound hnames) (Bootstrap.nullFree_install hsound hnames) h

theorem execute_guarded (hsound : c.Sound) (hnames : Bootstrap.Unambiguous c) (h : Heap) :
    engine.execute (Bootstrap.guarded c) h =
      installed (fun root => .installUnless (isArrayExpr c.tableName) (.of c root)) (rootExpr c) h :=
  execute_read (Program.ofScript_guarded hsound hnames) (Bootstrap.nullFree_guarded hsound hnames) h

theorem evaluate_presence (hsound : c.Sound) (h : Heap) : engine.evaluate (Bootstrap.presence c) h =
    reply h ((presenceExpr c).evaluate .body) toWire :=
  evaluate_read (Program.ofBody_presence hsound) (Bootstrap.nullFree_presence hsound) h

end Embedded
end ScriptBridge
