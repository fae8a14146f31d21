import ScriptBridge.Bootstrap
import ScriptBridge.Script.Parser

/-! Scripts as programs. The script that installs a table is known by its text, slot by slot; every other
script is read statement by statement. -/
namespace ScriptBridge.Script

open Text (Piece)

/-- The first character of what comes behind a slot. -/
def delimiter : List (Piece Bootstrap.Slot) → Option Char
  | .literal text :: _ => text.head?
  | _ => none

/-- Lays a template over the front of a text: what stands in each slot, and the rest of the text. -/
def captures? : List (Piece Bootstrap.Slot) → List Char → Option (List (Bootstrap.Slot × List Char) × List Char)
  | [], text => some ([], text)
  | .literal l :: pieces, text =>
    if l.isPrefixOf text then captures? pieces (text.drop l.length) else none
  | .slot s :: pieces, text =>
    let value := text.takeWhile fun c => some c != delimiter pieces
    (captures? pieces (text.drop value.length)).map fun r => ((s, value) :: r.1, r.2)

/-- What all slots of one name hold. -/
def captured? (s : Bootstrap.Slot) (found : List (Bootstrap.Slot × List Char)) : Option (List Char) :=
  match found.filter fun f => f.1 == s with
  | [] => none
  | f :: rest => if rest.all fun g => g.2 == f.2 then some f.2 else none

/-- The text that a slot holds between quotes. -/
def unquoted? (text : List Char) : Option String :=
  match Token.stringRest '\'' 0 (text ++ ['\'']) with
  | .ok (us, []) => (Text.ofUnits? us).map String.ofList
  | _ => none

/-- The installation that a text begins with, and the rest of the text. -/
def installation? (text : List Char) : Option (Except SyntaxFault Installation × List Char) := do
  let (found, rest) ← captures? Bootstrap.template text
  let root ← captured? .root found
  let tag ← (captured? .tag found).bind unquoted?
  let scheme ← (captured? .scheme found).bind unquoted?
  let table ← (captured? .table found).bind unquoted?
  let converter ← (captured? .converter found).bind unquoted?
  return ((Parser.expression? root).map fun e => ⟨e, tag, scheme, table, converter⟩, rest)

/-- The guard before an installation and the brace behind it. -/
def guardStart : List Char := "if (!Array.isArray(globalThis['".toList
def guardMiddle : List Char := "'])) \x7b\n".toList
def guardEnd : List Char := "\n\x7d".toList

def afterText? (front text : List Char) : Option (List Char) :=
  if front.isPrefixOf text then some (text.drop front.length) else none

/-- The condition under which a guard does nothing, and the text behind the guard. -/
def guard? (text : List Char) : Option (Expr × List Char) := do
  let text ← afterText? guardStart text
  let quoted := text.takeWhile (· != '\'')
  let name ← unquoted? quoted
  let table := Expr.index (.name "globalThis") (.constant (.text name))
  return (.call (.member (.name "Array") "isArray") [table], ← afterText? guardMiddle (text.drop quoted.length))

namespace Program

def guarded? (text : List Char) : Option (Except SyntaxFault Program) :=
  match guard? text with
  | none => none
  | some (condition, text) =>
    match installation? text with
    | some (i, rest) => if rest == guardEnd then some (i.map fun i => .installUnless condition i) else none
    | none => none

/-- The program of a script. -/
def ofScript (text : List Char) : Except SyntaxFault Program :=
  match installation? text with
  | some (i, []) => i.map .install
  | _ =>
    match guarded? text with
    | some p => p
    | none => (Parser.statements false (Token.scan text)).map .statements

/-- The program of a function's body. -/
def ofBody (text : List Char) : Except SyntaxFault Program :=
  (Parser.statements true (Token.scan text ++ [Parser.bodyEnd])).map .statements

end Program
end ScriptBridge.Script
