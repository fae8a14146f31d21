import ScriptBridge.Json.Reader
import ScriptBridge.Script.Number

/-! Numerals of the script language, in scripts and in strings that are taken for numbers. A numeral with a
point or an exponent stands for the nearest number. A whole numeral is read into 64 bits, and the digits
that do not fit count as places. -/
namespace ScriptBridge.Script.Numeral

-- Powers are those of the core library, whatever algebra is there besides.
attribute [local instance (high)] instPowNat

/-- Up to this value of the digits read another one fits into 64 bits. -/
def room (base : Nat) : Nat := (2 ^ (64 : Nat) - base) / base

/-- The value of the digits that fit, and the number of the others. -/
def accumulate (base : Nat) (digits : List Nat) : Nat × Nat :=
  digits.foldl (fun r d => if r.1 ≤ room base then (r.1 * base + d, r.2) else (r.1, r.2 + 1)) (0, 0)

/-- A power of a base. Ten has two powers that come out above the nearest number. -/
def power (base k : Nat) : Double :=
  let p := if 1100 < k then Double.infinity else Double.ofNat (base ^ k)
  if base = 10 ∧ (k = 23 ∨ k = 210) then ⟨p.bits + 1⟩ else p

/-- The number of a whole numeral. -/
def whole (base : Nat) (digits : List Nat) : Double :=
  let (n, places) := accumulate base digits
  let x := Double.ofNat n
  if places = 0 then x
  else if (power base places).isInfinite then Double.infinity else x.mulFinite (power base places)

/-- The base that a letter behind a zero announces. -/
def base? : Char → Option Nat
  | 'x' | 'X' => some 16
  | 'o' | 'O' => some 8
  | 'b' | 'B' => some 2
  | _ => none

def digit? (base : Nat) (c : Char) : Option Nat := (Json.hexValue? c).filter (decide <| · < base)

/-- The digits at the front of a text. -/
def digits (base : Nat) : List Char → List Nat × List Char
  | [] => ([], [])
  | c :: rest =>
    match digit? base c with
    | some d => ((d :: (digits base rest).1), (digits base rest).2)
    | none => ([], c :: rest)

/-- The exponent behind its mark, and the text behind it. -/
def exponent? (text : List Char) : Option (Int × List Char) :=
  let (below, rest) := match text with
    | '-' :: r => (true, r)
    | '+' :: r => (false, r)
    | r => (false, r)
  let ds := rest.takeWhile Char.isDigit
  if ds.isEmpty then none
  else
    let n : Int := Text.numeral ds
    some (if below then -n else n, rest.dropWhile Char.isDigit)

/-- The decimal numeral at the front of a text, and the text behind it. -/
def decimal? (text : List Char) : Option (Double × List Char) :=
  let left := text.takeWhile Char.isDigit
  let rest := text.dropWhile Char.isDigit
  let (point, right, rest) := match rest with
    | '.' :: r => (true, r.takeWhile Char.isDigit, r.dropWhile Char.isDigit)
    | r => (false, [], r)
  if left.isEmpty && right.isEmpty then none
  else
    let power? := match rest with
      | c :: r => if c == 'e' || c == 'E' then exponent? r else none
      | [] => none
    let nearest (e : Int) : Double := .ofDecimal false (Text.numeral (left ++ right)) (e - right.length)
    match power? with
    | some (e, rest) => some (nearest e, rest)
    | none => some (if point then nearest 0 else whole 10 (left.map Text.digitValue), rest)

/-- The numeral without a sign at the front of a text, and the text behind it. -/
def first? (text : List Char) : Option (Double × List Char) :=
  match text with
  | '0' :: c :: rest =>
    match base? c with
    | some base =>
      match digits base rest with
      | ([], _) => none
      | (ds, rest) => some (whole base ds, rest)
    | none => decimal? text
  | _ => decimal? text

end ScriptBridge.Script.Numeral
