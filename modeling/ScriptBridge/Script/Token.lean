import ScriptBridge.Script.Value

/-! Tokens of the script language: words, numbers, strings in single or double quotes, and marks. -/
namespace ScriptBridge.Script

/-- Why a text is no script. -/
inductive SyntaxFault where
  | unexpected (token : String)
  | expecting (mark : String)
  /-- some fault that is told in words -/
  | told (message : String)
  deriving DecidableEq, Repr, Inhabited

namespace SyntaxFault

def message : SyntaxFault → String
  | unexpected t => "unexpected token in expression: '" ++ t ++ "'"
  | expecting m => "expecting '" ++ m ++ "'"
  | told m => m

def unfinishedString : SyntaxFault := told "unexpected end of string"
def badEscape : SyntaxFault := told "malformed escape sequence in string literal"
def badNumber : SyntaxFault := told "invalid number literal"
def octalEscape : SyntaxFault := told "octal escape sequences are not allowed in strict mode"
def octalNumber : SyntaxFault := told "octal literals are deprecated in strict mode"
def badCharacter : SyntaxFault := told "unexpected character"
def unfinishedComment : SyntaxFault := told "unexpected end of comment"

end SyntaxFault

inductive TokenKind where
  | word (s : String)
  | number (x : Number)
  | string (c : Content)
  | mark (s : String)
  /-- the place where the text stops being made of tokens -/
  | fault (f : SyntaxFault)
  deriving DecidableEq, Repr, Inhabited

/-- A token, and whether a line ended in front of it. -/
structure Token where
  kind : TokenKind
  newLine : Bool
  deriving DecidableEq, Repr, Inhabited

namespace Token

def shortEscape? : Char → Option Char
  | 'b' => some (Char.ofNat 8)
  | 't' => some '\t'
  | 'n' => some '\n'
  | 'v' => some (Char.ofNat 11)
  | 'f' => some (Char.ofNat 12)
  | 'r' => some '\r'
  | _ => none

/-- The units of an escape after its backslash, and how many characters the escape has. A line end
stands for nothing, and a character without a meaning of its own for itself. -/
def escape? : List Char → Option (List Nat × Nat)
  | [] => none
  | '\r' :: '\n' :: _ => some ([], 2)
  | 'x' :: a :: b :: _ => do
    let a ← Json.hexValue? a
    let b ← Json.hexValue? b
    return ([a * 16 + b], 3)
  | 'u' :: '\x7b' :: rest => do
    let ds := rest.takeWhile fun c => (Json.hexValue? c).isSome
    let n ← ds.foldlM (fun n c => (Json.hexValue? c).map fun d => 16 * n + d) 0
    if ds.isEmpty || (rest.drop ds.length).head? != some '\x7d' || decide (0x110000 ≤ n) then none
    else return (if n < 0x10000 then [n] else Text.unitsOf (Char.ofNat n), ds.length + 3)
  | 'u' :: a :: b :: c :: d :: _ => (Json.hexUnit? a b c d).map fun n => ([n], 5)
  | 'x' :: _ | 'u' :: _ => none
  | c :: rest =>
    if isLineEnd c then some ([], 1)
    else if c.isDigit then
      if c == '0' && !(rest.head?.any Char.isDigit) then some ([0], 1) else none
    else match shortEscape? c with
      | some d => some (Text.unitsOf d, 1)
      | none => some (Text.unitsOf c, 1)

/-- What is wrong with the text of an escape that is none. -/
def escapeFault : List Char → SyntaxFault
  | [] => .unfinishedString
  | c :: _ => if '0' ≤ c ∧ c ≤ '7' then .octalEscape else .badEscape

/-- The rest of a string after its opening quote: its units, and the text after the closing quote. The
counter says how many characters of an escape are still to be dropped. -/
def stringRest (quote : Char) : Nat → List Char → Except SyntaxFault (List Nat × List Char)
  | _, [] => .error .unfinishedString
  | k + 1, _ :: rest => stringRest quote k rest
  | 0, c :: rest =>
    if c = quote then .ok ([], rest)
    else if c = '\\' then
      match escape? rest with
      | some (us, n) => (stringRest quote n rest).map fun r => (us ++ r.1, r.2)
      | none => .error (escapeFault rest)
    else if c = '\n' ∨ c = '\r' then .error .unfinishedString
    else (stringRest quote 0 rest).map fun r => (Text.unitsOf c ++ r.1, r.2)

/-- A number at the front of a text that begins with a digit or with a point and a digit. -/
def number (text : List Char) : Except SyntaxFault (Number × List Char) :=
  match text with
  | '0' :: c :: _ =>
    if c.isDigit then .error .octalNumber else plain text
  | _ => plain text
where
  plain (text : List Char) : Except SyntaxFault (Number × List Char) :=
    match Numeral.first? text with
    | some (x, rest) => if rest.head?.any isWordPart then .error .badNumber else .ok (.ofDouble x, rest)
    | none => .error .badNumber

def marks : List String :=
  ["===", "!==", "==", "!=", "&&", "||", "(", ")", "[", "]", "\x7b", "\x7d", ".", ",", ";", "=", "!", "-", "+",
    ":", "?", "<", ">", "*", "/", "%", "&", "|", "^", "~"]

def mark? (text : List Char) : Option String := marks.find? fun m => m.toList.isPrefixOf text

/-- The text behind a comment up to the end of its line. -/
def afterLine (text : List Char) : List Char := text.dropWhile fun c => !isLineEnd c

/-- Whether a line ends in a comment between its two marks, and the text behind it. -/
def afterBlock? (newLine : Bool) : List Char → Option (Bool × List Char)
  | [] => none
  | '*' :: '/' :: rest => some (newLine, rest)
  | c :: rest => afterBlock? (newLine || isLineEnd c) rest

/-- The first token of a text that begins with no blank and no comment, and the rest. -/
def first (c : Char) (rest : List Char) : TokenKind × List Char :=
  if c = '\'' ∨ c = '"' then
    match stringRest c 0 rest with
    | .ok (us, after) => (.string (Content.ofUnits us), after)
    | .error f => (.fault f, [])
  else if c.isDigit || (c == '.' && rest.head?.any Char.isDigit) then
    match number (c :: rest) with
    | .ok (x, after) => (.number x, after)
    | .error f => (.fault f, [])
  else if isWordStart c then
    (.word (String.ofList (c :: rest.takeWhile isWordPart)), rest.dropWhile isWordPart)
  else match mark? (c :: rest) with
    | some m => (.mark m, rest.drop (m.length - 1))
    | none =>
      if c.toNat < 0x80 then (.mark (String.singleton c), rest) else (.fault .badCharacter, [])

/-- The tokens of a text behind those already found, the last of which comes first. Each step takes at
least one character, and the fuel bounds the steps. -/
def scanFrom (found : List Token) (newLine : Bool) : (fuel : Nat) → List Char → List Token
  | 0, _ | _, [] => found.reverse
  | fuel + 1, c :: rest =>
    if isBlank c then scanFrom found (newLine || isLineEnd c) fuel rest
    else if c = '/' ∧ rest.head? = some '/' then scanFrom found newLine fuel (afterLine rest)
    else if c = '/' ∧ rest.head? = some '*' then
      match afterBlock? newLine (rest.drop 1) with
      | some (newLine, after) => scanFrom found newLine fuel after
      | none => (⟨.fault .unfinishedComment, newLine⟩ :: found).reverse
    else
      let (kind, after) := first c rest
      scanFrom (⟨kind, newLine⟩ :: found) false fuel after

/-- The tokens of a text. -/
def scan (text : List Char) : List Token := scanFrom [] false text.length text

end Token
end ScriptBridge.Script
