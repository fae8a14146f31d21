import ScriptBridge.Json.Reader

/-! TOML strings: the four quoted forms, their reading, and the choice of a form for writing. -/
namespace ScriptBridge.Toml

/-- A control character other than the tab; none may stand in a document outside of line ends. -/
def isControl (c : Char) : Bool := (decide (c.toNat < 0x20) && c != '\t') || c.toNat == 0x7F

def isBlank (c : Char) : Bool := c == ' ' || c == '\t'

def hexNumber? (ds : List Char) : Option Nat :=
  ds.foldlM (fun n c => (Json.hexValue? c).map fun d => 16 * n + d) 0

/-- The character of a number; half of a pair is none. -/
def charOf? (n : Nat) : Option Char :=
  if n < 0xD800 ∨ (0xE000 ≤ n ∧ n < 0x110000) then some (Char.ofNat n) else none

def shortEscape? : Char → Option Char
  | 'b' => some (Char.ofNat 8)
  | 't' => some '\t'
  | 'n' => some '\n'
  | 'f' => some (Char.ofNat 12)
  | 'r' => some '\r'
  | 'e' => some (Char.ofNat 27)
  | '"' => some '"'
  | '\\' => some '\\'
  | _ => none

/-- How many digits follow the letter of a numbered escape. -/
def escapeDigits : Char → Nat
  | 'x' => 2
  | 'u' => 4
  | 'U' => 8
  | _ => 0

/-- The character of an escape after its backslash, and how many characters the escape has. -/
def escape? : List Char → Option (Char × Nat)
  | [] => none
  | c :: rest =>
    match escapeDigits c with
    | 0 => (shortEscape? c).map fun d => (d, 1)
    | n =>
      if (rest.take n).length < n then none
      else ((hexNumber? (rest.take n)).bind charOf?).map fun d => (d, n + 1)

/-- The line end at the front of a text, and what follows it. -/
def afterLineEnd? : List Char → Option (List Char)
  | '\n' :: rest => some rest
  | '\r' :: '\n' :: rest => some rest
  | _ => none

abbrev Read := Option (List Char × List Char)

def Read.cons (c : Char) (r : Read) : Read := r.map fun x => (c :: x.1, x.2)

/-- A one-line string in double quotes after the opening one. The counter says how many characters of
an escape are still to be dropped. -/
def basicRest : Nat → List Char → Read
  | _, [] => none
  | k + 1, _ :: rest => basicRest k rest
  | 0, '"' :: rest => some ([], rest)
  | 0, '\\' :: rest =>
    match escape? rest with
    | some (c, n) => (basicRest n rest).cons c
    | none => none
  | 0, c :: rest => if isControl c then none else (basicRest 0 rest).cons c

/-- A one-line string in single quotes after the opening one. -/
def literalRest : List Char → Read
  | [] => none
  | '\'' :: rest => some ([], rest)
  | c :: rest => if isControl c then none else (literalRest rest).cons c

/-- Behind three closing quotes up to two more belong to the text. -/
def closing (quote : Char) : List Char → List Char × List Char
  | a :: b :: rest =>
    if a = quote then (if b = quote then ([a, b], rest) else ([a], b :: rest)) else ([], a :: b :: rest)
  | [a] => if a = quote then ([a], []) else ([], [a])
  | [] => ([], [])

/-- A backslash with nothing but blanks behind it on its line. -/
def breaksLine (text : List Char) : Bool := (afterLineEnd? (text.dropWhile isBlank)).isSome

/-- What follows an opening triple of quotes: a line end right behind it is dropped. -/
def afterOpening (text : List Char) : List Char := (afterLineEnd? text).getD text

/-- A text of several lines in double quotes. While `skipping`, blanks and line ends are dropped. -/
def multiBasicRest : (skipping : Bool) → Nat → List Char → Read
  | _, _, [] => none
  | s, k + 1, _ :: rest => multiBasicRest s k rest
  | s, 0, c :: rest =>
    if s && (isBlank c || c == '\n' || (c == '\r' && rest.head? == some '\n')) then multiBasicRest true 0 rest
    else if c == '"' && rest.take 2 == ['"', '"'] then some (closing '"' (rest.drop 2))
    else if c == '\\' then
      if breaksLine rest then multiBasicRest true 0 rest
      else match escape? rest with
        | some (d, n) => (multiBasicRest false n rest).cons d
        | none => none
    else if c == '\n' || (c == '\r' && rest.head? == some '\n') then (multiBasicRest false 0 rest).cons c
    else if isControl c then none
    else (multiBasicRest false 0 rest).cons c

/-- A text of several lines in single quotes. -/
def multiLiteralRest : List Char → Read
  | [] => none
  | c :: rest =>
    if c == '\'' && rest.take 2 == ['\'', '\''] then some (closing '\'' (rest.drop 2))
    else if c == '\n' || (c == '\r' && rest.head? == some '\n') then (multiLiteralRest rest).cons c
    else if isControl c then none
    else (multiLiteralRest rest).cons c

/-- A string of one line. -/
def lineString? : List Char → Read
  | '"' :: rest => basicRest 0 rest
  | '\'' :: rest => literalRest rest
  | _ => none

/-- A string in any form. -/
def string? : List Char → Read
  | '"' :: '"' :: '"' :: rest => multiBasicRest false 0 (afterOpening rest)
  | '\'' :: '\'' :: '\'' :: rest => multiLiteralRest (afterOpening rest)
  | cs => lineString? cs

/-- The longest run of a character. -/
def longestRun (c : Char) (text : List Char) : Nat :=
  (text.foldl (fun (r : Nat × Nat) d => if d = c then (max r.1 (r.2 + 1), r.2 + 1) else (r.1, 0)) (0, 0)).1

/-- Four digits in base sixteen, in upper case. -/
def hexQuad (n : Nat) : List Char :=
  [n / 4096, n / 256, n / 16, n].map fun d => (Nat.digitChar (d % 16)).toUpper

/-- One character of a text in double quotes, after `run` double quotes. -/
def escapedChar (multiline : Bool) (run : Nat) (c : Char) : List Char :=
  if c = Char.ofNat 8 then ['\\', 'b']
  else if c = '\t' then ['\\', 't']
  else if c = Char.ofNat 12 then ['\\', 'f']
  else if c = '\r' then ['\\', 'r']
  else if c = '\\' then ['\\', '\\']
  else if c = '\n' then (if multiline then ['\n'] else ['\\', 'n'])
  else if c = '"' then (if multiline && decide (run < 2) then ['"'] else ['\\', '"'])
  else if isControl c then ['\\', 'u'] ++ hexQuad c.toNat
  else [c]

/-- The text between double quotes. Of a run of double quotes every third is escaped where the quotes
are three. -/
def escaped (multiline : Bool) : (run : Nat) → List Char → List Char
  | _, [] => []
  | run, c :: rest =>
    escapedChar multiline run c
      ++ escaped multiline (if c = '"' ∧ run < 2 then run + 1 else 0) rest

def tripled (quote : Char) (opening text : List Char) : List Char :=
  [quote, quote, quote] ++ opening ++ text ++ [quote, quote, quote]

/-- A string in the first form that takes it: double quotes, single quotes, three double quotes and
three single quotes, as long as nothing has to be escaped, and otherwise double quotes with escapes. -/
def writeString (text : List Char) : List Char :=
  let controls := text.any fun c => isControl c && c != '\n'
  let multiline := text.contains '\n'
  let opening := if multiline then ['\n'] else []
  if !controls && !multiline && !text.contains '\\' && !text.contains '"' then
    '"' :: escaped false 0 text ++ ['"']
  else if !controls && !multiline && !text.contains '\'' then '\'' :: text ++ ['\'']
  else if !controls && !text.contains '\\' && decide (longestRun '"' text < 3) then
    tripled '"' opening (escaped true 0 text)
  else if !controls && decide (longestRun '\'' text < 3) then tripled '\'' opening text
  else if multiline then tripled '"' opening (escaped true 0 text)
  else '"' :: escaped false 0 text ++ ['"']

end ScriptBridge.Toml
