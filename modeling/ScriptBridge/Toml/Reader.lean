import ScriptBridge.Toml.Number

/-! Reading of TOML documents. The fuel of each function bounds the characters it may still read. -/
namespace ScriptBridge.Toml

def isBareKeyChar (c : Char) : Bool := c.isAlphanum || c == '_' || c == '-'

def skipBlank (text : List Char) : List Char := text.dropWhile isBlank

/-- A comment up to the end of its line; the text that follows begins with the line end. -/
def afterComment? (text : List Char) : Option (List Char) :=
  let rest := text.dropWhile fun c => !isControl c
  if rest.isEmpty || (afterLineEnd? rest).isSome then some rest else none

/-- Blanks, line ends and comments. -/
def skipLines? : Nat → List Char → Option (List Char)
  | 0, _ => none
  | fuel + 1, input =>
    match skipBlank input with
    | '#' :: rest =>
      match afterComment? rest with
      | some rest => skipLines? fuel rest
      | none => none
    | rest =>
      match afterLineEnd? rest with
      | some rest => skipLines? fuel rest
      | none => some rest

/-- One part of a key: bare, or a string of one line. -/
def simpleKey? (text : List Char) : Option (String × List Char) :=
  match text with
  | '"' :: _ => (lineString? text).map fun r => (String.ofList r.1, r.2)
  | '\'' :: _ => (lineString? text).map fun r => (String.ofList r.1, r.2)
  | _ =>
    let word := text.takeWhile isBareKeyChar
    if word.isEmpty then none else some (String.ofList word, text.dropWhile isBareKeyChar)

/-- The deepest nesting of brackets and braces that is read, and the most parts that a key may have. -/
def maxDepth : Nat := 80

/-- The parts of a key, as many as the fuel says at most: those before the last one, the last one, and
the text behind the blanks after it. -/
def keyParts? : Nat → List Char → Option (List String × String × List Char)
  | 0, _ => none
  | fuel + 1, input =>
    match simpleKey? (skipBlank input) with
    | none => none
    | some (part, rest) =>
      match skipBlank rest with
      | '.' :: rest => (keyParts? fuel rest).map fun r => (part :: r.1, r.2.1, r.2.2)
      | rest => some ([], part, rest)

/-- A key with the parts before its last one, and the text behind it. -/
def key? (text : List Char) : Option (List String × String × List Char) := keyParts? maxDepth text

/-- The characters of bare values. -/
def isBareChar (c : Char) : Bool :=
  c.isAlphanum || c == '_' || c == '-' || c == '+' || c == '.' || c == ':'

/-- The bare word at the front; between a date and a time a space belongs to it. -/
def bareWord (text : List Char) : List Char × List Char :=
  let word := text.takeWhile isBareChar
  let rest := text.dropWhile isBareChar
  match rest with
  | ' ' :: a :: b :: ':' :: more =>
    if a.isDigit && b.isDigit && afterDate? word == some [] then
      let time := a :: b :: ':' :: more
      (word ++ ' ' :: time.takeWhile isBareChar, time.dropWhile isBareChar)
    else (word, rest)
  | _ => (word, rest)

/-- What comes behind an equals sign of a table in braces; lines may end on both sides of it. -/
def afterEquals? (text : List Char) : Option (List Char) :=
  match skipLines? (text.length + 1) text with
  | some ('=' :: rest) => skipLines? (rest.length + 1) rest
  | _ => none

mutual
/-- One value, with nothing before it. -/
def value? : Nat → List Char → Option (Toml × List Char)
  | 0, _ => none
  | fuel + 1, input =>
    match input with
    | '"' :: _ => (string? input).map fun r => (.text (String.ofList r.1), r.2)
    | '\'' :: _ => (string? input).map fun r => (.text (String.ofList r.1), r.2)
    | '[' :: rest => (items? fuel rest).map fun r => (.array r.1, r.2)
    | '\x7b' :: rest => (fields? fuel [] rest).map fun r => (.table .inline r.1, r.2)
    | _ =>
      let (word, rest) := bareWord input
      (bare? word).map fun v => (v, rest)

/-- The values of an array up to its closing bracket; a comma may stand before it. -/
def items? : Nat → List Char → Option (List Toml × List Char)
  | 0, _ => none
  | fuel + 1, input =>
    match skipLines? (input.length + 1) input with
    | none => none
    | some (']' :: rest) => some ([], rest)
    | some rest =>
      match value? fuel rest with
      | none => none
      | some (v, rest) =>
        match skipLines? (rest.length + 1) rest with
        | some (',' :: rest) => (items? fuel rest).map fun r => (v :: r.1, r.2)
        | some (']' :: rest) => some ([v], rest)
        | _ => none

/-- The fields of a table in braces, added to those before. -/
def fields? : Nat → Fields → List Char → Option (Fields × List Char)
  | 0, _, _ => none
  | fuel + 1, before, input =>
    match skipLines? (input.length + 1) input with
    | none => none
    | some ('\x7d' :: rest) => some (before, rest)
    | some rest =>
      match key? rest with
      | none => none
      | some (path, key, rest) =>
        match (afterEquals? rest).bind (value? fuel) with
        | none => none
        | some (v, rest) =>
          match addKey path key v .inline before with
          | none => none
          | some fields =>
            match skipLines? (rest.length + 1) rest with
            | some (',' :: rest) => fields? fuel fields rest
            | some ('\x7d' :: rest) => some (fields, rest)
            | _ => none
end

/-- What closes a statement: blanks, perhaps a comment, and the end of the line or of the document. -/
def afterStatement? (text : List Char) : Option (List Char) :=
  let rest := match skipBlank text with
    | '#' :: rest => afterComment? rest
    | rest => some rest
  match rest with
  | some [] => some []
  | some rest => afterLineEnd? rest
  | none => none

/-- One header or field, with nothing before it. -/
def statement? (text : List Char) : Option (Statement × List Char) :=
  match text with
  | '[' :: '[' :: rest =>
    match key? rest with
    | some (path, key, ']' :: ']' :: rest) => some (.arrayHeader path key, rest)
    | _ => none
  | '[' :: rest =>
    match key? rest with
    | some (path, key, ']' :: rest) => some (.tableHeader path key, rest)
    | _ => none
  | _ =>
    match key? text with
    | some (path, key, '=' :: rest) =>
      match value? (2 * text.length + 2) (skipBlank rest) with
      | some (v, rest) => if v.depth ≤ maxDepth then some (.field path key v, rest) else none
      | none => none
    | _ => none

def statements? : Nat → List Char → Option (List Statement)
  | 0, _ => none
  | fuel + 1, input =>
    match skipLines? (input.length + 1) input with
    | none => none
    | some [] => some []
    | some rest =>
      match statement? rest with
      | none => none
      | some (s, rest) =>
        match afterStatement? rest with
        | some rest => (statements? fuel rest).map (s :: ·)
        | none => none

/-- The mark of byte order that may open a document. -/
def byteOrderMark : Char := Char.ofNat 0xFEFF

/-- The fields of a document. -/
def parse? (text : List Char) : Option Fields :=
  let text := if text.head? == some byteOrderMark then text.drop 1 else text
  (statements? (text.length + 1) text).bind ofStatements?

end ScriptBridge.Toml
