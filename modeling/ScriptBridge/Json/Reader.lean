import ScriptBridge.Json
import ScriptBridge.Text.Units

/-! Reading of JSON documents. The grammar is the strict one: no comments, no trailing commas, no bare
controls in strings. The fuel of each function bounds the characters it may still read. -/
namespace ScriptBridge.Json

def isBlank (c : Char) : Bool := c == ' ' || c == '\n' || c == '\t' || c == '\r'

def skipBlank (text : List Char) : List Char := text.dropWhile isBlank

def hexValue? (c : Char) : Option Nat :=
  if c.isDigit then some (c.toNat - '0'.toNat)
  else if 'a' ≤ c ∧ c ≤ 'f' then some (c.toNat - 'a'.toNat + 10)
  else if 'A' ≤ c ∧ c ≤ 'F' then some (c.toNat - 'A'.toNat + 10)
  else none

def hexUnit? (a b c d : Char) : Option Nat := do
  let a ← hexValue? a
  let b ← hexValue? b
  let c ← hexValue? c
  let d ← hexValue? d
  return ((a * 16 + b) * 16 + c) * 16 + d

/-- The characters of the escapes with one letter. -/
def shortEscape? : Char → Option Char
  | '"' => some '"'
  | '\\' => some '\\'
  | '/' => some '/'
  | 'b' => some (Char.ofNat 8)
  | 'f' => some (Char.ofNat 12)
  | 'n' => some '\n'
  | 'r' => some '\r'
  | 't' => some '\t'
  | _ => none

/-- The rest of a string after its opening quote: its units, and what follows the closing one. -/
def stringUnits : List Char → Option (List Nat × List Char)
  | [] => none
  | '"' :: rest => some ([], rest)
  | '\\' :: 'u' :: a :: b :: c :: d :: rest =>
    match hexUnit? a b c d with
    | some n => (stringUnits rest).map fun r => (n :: r.1, r.2)
    | none => none
  | '\\' :: c :: rest =>
    match shortEscape? c with
    | some d => (stringUnits rest).map fun r => (Text.unitsOf d ++ r.1, r.2)
    | none => none
  | c :: rest =>
    if c == '\\' || decide (c.toNat < 0x20) then none
    else (stringUnits rest).map fun r => (Text.unitsOf c ++ r.1, r.2)

/-- A string after its opening quote, and what follows it. -/
def stringRest (text : List Char) : Option (Option String × List Char) :=
  (stringUnits text).map fun r => ((Text.ofUnits? r.1).map String.ofList, r.2)

def digitsOf (text : List Char) : List Char × List Char :=
  (text.takeWhile Char.isDigit, text.dropWhile Char.isDigit)

/-- The fraction of a number, when a point follows. -/
def fractionOf (text : List Char) : Option (List Char × Bool × List Char) :=
  match text with
  | '.' :: rest =>
    let (ds, rest) := digitsOf rest
    if ds.isEmpty then none else some (ds, true, rest)
  | _ => some ([], false, text)

def exponentOf (text : List Char) : Option (Option (Bool × List Char) × List Char) :=
  match text with
  | c :: rest =>
    if c == 'e' || c == 'E' then
      let (below, rest) := match rest with
        | '-' :: r => (true, r)
        | '+' :: r => (false, r)
        | _ => (false, rest)
      let (ds, rest) := digitsOf rest
      if ds.isEmpty then none else some (some (below, ds), rest)
    else some (none, text)
  | [] => some (none, text)

/-- A number; a leading zero stands alone before the point. -/
def number? (text : List Char) : Option (Number × List Char) := do
  let (negative, text) := match text with
    | '-' :: r => (true, r)
    | _ => (false, text)
  let (whole, text) := digitsOf text
  if whole.isEmpty || (decide (1 < whole.length) && whole.head? == some '0') then none
  else
    let (fraction, pointed, text) ← fractionOf text
    let (exponent, text) ← exponentOf text
    return (⟨negative, whole, fraction, exponent, !pointed && exponent.isNone⟩, text)

/-- The rest of a fixed word. -/
def afterWord? (word text : List Char) : Option (List Char) :=
  if word.isPrefixOf text then some (text.drop word.length) else none

mutual
/-- One value, blanks before it skipped. -/
def value? : Nat → List Char → Option (Json × List Char)
  | 0, _ => none
  | fuel + 1, input =>
    match skipBlank input with
    | '[' :: rest =>
      match skipBlank rest with
      | ']' :: rest => some (.array [], rest)
      | _ => (items? fuel rest).map fun r => (.array r.1, r.2)
    | '\x7b' :: rest =>
      match skipBlank rest with
      | '\x7d' :: rest => some (.object [], rest)
      | _ => (fields? fuel rest).map fun r => (.object r.1, r.2)
    | '"' :: rest => (stringRest rest).map fun r => (.text r.1, r.2)
    | 'n' :: rest => (afterWord? ['u', 'l', 'l'] rest).map fun r => (.null, r)
    | 't' :: rest => (afterWord? ['r', 'u', 'e'] rest).map fun r => (.bool true, r)
    | 'f' :: rest => (afterWord? ['a', 'l', 's', 'e'] rest).map fun r => (.bool false, r)
    | rest => (number? rest).map fun r => (.number r.1, r.2)

/-- The values of an array up to its closing bracket. -/
def items? : Nat → List Char → Option (List Json × List Char)
  | 0, _ => none
  | fuel + 1, input =>
    match value? fuel input with
    | none => none
    | some (v, rest) =>
      match skipBlank rest with
      | ',' :: rest => (items? fuel rest).map fun r => (v :: r.1, r.2)
      | ']' :: rest => some ([v], rest)
      | _ => none

/-- The fields of an object up to its closing brace. -/
def fields? : Nat → List Char → Option (List (Option String × Json) × List Char)
  | 0, _ => none
  | fuel + 1, input =>
    match skipBlank input with
    | '"' :: rest =>
      match stringRest rest with
      | none => none
      | some (key, rest) =>
        match skipBlank rest with
        | ':' :: rest =>
          match value? fuel rest with
          | none => none
          | some (v, rest) =>
            let field := (key, v)
            match skipBlank rest with
            | ',' :: rest => (fields? fuel rest).map fun r => (field :: r.1, r.2)
            | '\x7d' :: rest => some ([field], rest)
            | _ => none
        | _ => none
    | _ => none
end

/-- A document: one value with nothing but blanks around it. -/
def parse? (text : List Char) : Option Json :=
  match value? (2 * text.length + 2) text with
  | some (v, rest) => if (skipBlank rest).isEmpty then some v else none
  | none => none

end ScriptBridge.Json
