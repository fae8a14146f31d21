import ScriptBridge.Toml
import ScriptBridge.Toml.Text

/-! The bare values of TOML: truth values, integers, numbers with a point or an exponent, and dates and
times. -/
namespace ScriptBridge.Toml

-- Powers are those of the core library, whatever algebra is there besides.
attribute [local instance (high)] instPowNat

open ScriptBridge.Text (numeral digitValue)

/-- Digits with single underscores between them. -/
def grouped? (isDigit : Char → Bool) : List Char → Option (List Char)
  | [] => none
  | [c] => if isDigit c then some [c] else none
  | c :: '_' :: rest => if isDigit c then (grouped? isDigit rest).map (c :: ·) else none
  | c :: rest => if isDigit c then (grouped? isDigit rest).map (c :: ·) else none

/-- The sign of a number and the rest. -/
def signed : List Char → Bool × List Char
  | '-' :: rest => (true, rest)
  | '+' :: rest => (false, rest)
  | digits => (false, digits)

/-- Decimal digits of an integer part; a leading zero stands alone. -/
def wholePart? (text : List Char) : Option (List Char) :=
  match grouped? Char.isDigit text with
  | some ds => if ds.head? == some '0' && decide (1 < ds.length) then none else some ds
  | none => none

def baseValue (base : Nat) (ds : List Char) : Nat :=
  ds.foldl (fun n c => base * n + (Json.hexValue? c).getD 0) 0

def isOctal (c : Char) : Bool := decide ('0' ≤ c) && decide (c ≤ '7')
def isBinary (c : Char) : Bool := c == '0' || c == '1'
def isHex (c : Char) : Bool := (Json.hexValue? c).isSome

/-- An integer in one of the four bases; only decimal ones have a sign. -/
def integer? : List Char → Option Int
  | '0' :: 'x' :: rest => (grouped? isHex rest).map fun ds => (baseValue 16 ds : Int)
  | '0' :: 'o' :: rest => (grouped? isOctal rest).map fun ds => (baseValue 8 ds : Int)
  | '0' :: 'b' :: rest => (grouped? isBinary rest).map fun ds => (baseValue 2 ds : Int)
  | word =>
    let (negative, digits) := signed word
    (wholePart? digits).map fun ds => if negative then -(numeral ds : Int) else numeral ds

/-- The integers that some type of at most 128 bits holds. -/
def inRange (n : Int) : Bool := decide (-2 ^ (127 : Nat) ≤ n) && decide (n < 2 ^ (128 : Nat))

/-- The digits behind the point, and the exponent. -/
def fractionAndExponent? (text : List Char) : Option (List Char × Int) :=
  let (fraction, exponent) := (text.takeWhile fun c => c != 'e' && c != 'E',
    text.dropWhile fun c => c != 'e' && c != 'E')
  let fraction? := match fraction with
    | [] => some []
    | '.' :: rest => grouped? Char.isDigit rest
    | _ => none
  let exponent? := match exponent with
    | [] => some 0
    | _ :: rest =>
      let (negative, ds) := signed rest
      (grouped? Char.isDigit ds).map fun ds => if negative then -(numeral ds : Int) else numeral ds
  match fraction?, exponent? with
  | some f, some e => if text.isEmpty then none else some (f, e)
  | _, _ => none

/-- A number with a point or an exponent, or one of the named ones. A decimal beyond the range of
64-bit numbers is refused. -/
def isReal (text : List Char) : Bool :=
  let (_, body) := signed text
  if body == ['i', 'n', 'f'] || body == ['n', 'a', 'n'] then true
  else
    let isWhole (c : Char) := c.isDigit || c == '_'
    match wholePart? (body.takeWhile isWhole), fractionAndExponent? (body.dropWhile isWhole) with
    | some whole, some (fraction, e) =>
      !(Double.ofDecimal false (numeral (whole ++ fraction)) (e - fraction.length)).isInfinite
    | _, _ => false

/-- The number of exactly so many digits at the front, and the rest. -/
def fixed? (count : Nat) (text : List Char) : Option (Nat × List Char) :=
  let ds := text.take count
  if ds.length = count ∧ ds.all Char.isDigit then some (numeral ds, text.drop count) else none

def isLeapYear (y : Nat) : Bool := y % 4 == 0 && (y % 100 != 0 || y % 400 == 0)

def daysIn (year month : Nat) : Nat :=
  if month == 2 then (if isLeapYear year then 29 else 28)
  else if month == 4 || month == 6 || month == 9 || month == 11 then 30 else 31

/-- A date at the front, and the rest. -/
def afterDate? (text : List Char) : Option (List Char) := do
  let (year, text) ← fixed? 4 text
  let text ← Json.afterWord? ['-'] text
  let (month, text) ← fixed? 2 text
  let text ← Json.afterWord? ['-'] text
  let (day, text) ← fixed? 2 text
  if decide (1 ≤ month) && decide (month ≤ 12) && decide (1 ≤ day) && decide (day ≤ daysIn year month) then
    some text
  else none

/-- A time of day at the front, and the rest. -/
def afterTime? (text : List Char) : Option (List Char) := do
  let (hour, text) ← fixed? 2 text
  let text ← Json.afterWord? [':'] text
  let (minute, text) ← fixed? 2 text
  if decide (23 < hour) || decide (59 < minute) then none
  else match text with
    | ':' :: text => do
      let (second, text) ← fixed? 2 text
      if 60 < second then none
      else match text with
        | '.' :: fraction =>
          if (fraction.takeWhile Char.isDigit).isEmpty then none else some (fraction.dropWhile Char.isDigit)
        | _ => some text
    | _ => some text

/-- The distance of a time from universal time at the front, and the rest. -/
def afterOffset? : List Char → Option (List Char)
  | 'Z' :: rest => some rest
  | 'z' :: rest => some rest
  | c :: rest =>
    if c == '+' || c == '-' then do
      let (hour, rest) ← fixed? 2 rest
      let rest ← Json.afterWord? [':'] rest
      let (minute, rest) ← fixed? 2 rest
      if decide (23 < hour) || decide (59 < minute) then none else some rest
    else none
  | [] => none

/-- A date, a time, or both with a letter or a space between them and perhaps an offset behind. -/
def isMoment (text : List Char) : Bool :=
  match afterDate? text with
  | some [] => true
  | some (c :: rest) =>
    (c == 'T' || c == 't' || c == ' ') &&
      match afterTime? rest with
      | some [] => true
      | some rest => afterOffset? rest == some []
      | none => false
  | none => afterTime? text == some []

/-- A bare value. -/
def bare? (text : List Char) : Option Toml :=
  if text == ['t', 'r', 'u', 'e'] then some (.bool true)
  else if text == ['f', 'a', 'l', 's', 'e'] then some (.bool false)
  else match integer? text with
    | some n => if inRange n then some (.integer n) else none
    | none => if isReal text then some .real else if isMoment text then some .moment else none

end ScriptBridge.Toml
