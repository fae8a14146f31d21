import ScriptBridge.Script.Letter
import ScriptBridge.Script.Numeral

/-! Values of the script language, and the keys of properties. -/
namespace ScriptBridge.Script

-- Powers are those of the core library, whatever algebra is there besides.
attribute [local instance (high)] instPowNat

/-- A string: a text, or a sequence of units that is none. -/
inductive Content where
  | text (s : String)
  | broken (units : List Nat)
  deriving DecidableEq, Repr, Inhabited

namespace Content

def units : Content → List Nat
  | text s => Text.units s.toList
  | broken us => us

def ofUnits (us : List Nat) : Content :=
  match Text.ofUnits? us with
  | some cs => text (String.ofList cs)
  | none => broken us

def ofChars (cs : List Char) : Content := text (String.ofList cs)

def append : Content → Content → Content
  | text a, text b => text (a ++ b)
  | a, b => ofUnits (a.units ++ b.units)

/-- The length counts units. -/
def length (c : Content) : Nat := c.units.length

def unit? (c : Content) (n : Nat) : Option Content := (c.units[n]?).map fun u => ofUnits [u]

/-- The number that a string stands for; blanks around it count nothing, and nothing is zero. -/
def toDouble (c : Content) : Double :=
  match c with
  | broken _ => Double.nan
  | text s =>
    let cs := s.toList.dropWhile isBlank
    if cs.isEmpty then Double.zero
    else
      let unsigned (sign : Bool) (cs : List Char) : Option (Double × List Char) :=
        let word := "Infinity".toList
        if word.isPrefixOf cs then some (Double.infinity, cs.drop word.length)
        else if sign then Numeral.decimal? cs
        else Numeral.first? cs
      let read : Option (Double × List Char) := match cs with
        | '-' :: cs => (unsigned true cs).map fun r => (r.1.neg, r.2)
        | '+' :: cs => unsigned true cs
        | cs => unsigned false cs
      match read with
      | some (x, rest) => if rest.all isBlank then x else Double.nan
      | none => Double.nan

end Content

/-- Objects are known by their place in the heap. -/
abbrev Address := Nat

inductive Value where
  | undefined
  | null
  | bool (b : Bool)
  | number (x : Number)
  | string (c : Content)
  | symbol (description : String)
  | object (a : Address)
  deriving DecidableEq, Repr, Inhabited

namespace Value

def text (s : String) : Value := .string (.text s)

def nat (n : Nat) : Value := .number (.ofNat n)

/-- Equality without conversion. -/
def same : Value → Value → Bool
  | .number x, .number y => x.same y
  | v, w => decide (v = w)

/-- Equality that tells the zeros apart. -/
def identical : Value → Value → Bool
  | .number x, .number y => x.identical y
  | v, w => decide (v = w)

def isNullish : Value → Bool
  | .undefined | .null => true
  | _ => false

/-- What counts as true in a condition. -/
def truth : Value → Bool
  | .undefined | .null => false
  | .bool b => b
  | .number x => x.truth
  | .string c => !c.units.isEmpty
  | _ => true

end Value

/-- A property key. Array indices are kept apart from the other names. -/
inductive Key where
  | index (n : Nat)
  | name (c : Content)
  | symbol (description : String)
  deriving DecidableEq, Repr, Inhabited

namespace Key

/-- The bound of array indices. -/
def indexBound : Nat := 2 ^ (32 : Nat) - 1

/-- The numerals without leading zeros below the bound are indices. -/
def ofChars (cs : List Char) : Key :=
  let n := Text.numeral cs
  if cs.all Char.isDigit && Text.decimal n == cs && decide (n < indexBound) then .index n
  else .name (.ofChars cs)

def ofText (s : String) : Key := ofChars s.toList

def ofContent : Content → Key
  | .text s => ofText s
  | c => .name c

def ofNat (n : Nat) : Key := if n < indexBound then .index n else ofChars (Text.decimal n)

/-- The length of arrays, strings and functions. -/
def length : Key := .name (.text "length")

/-- Names the object that an object inherits from. -/
def proto : Key := .name (.text "__proto__")

/-- The bytes of a unit, written by itself. -/
def unitBytes (u : Nat) : Nat := if u < 0x80 then 1 else if u < 0x800 then 2 else 3

/-- The units of a name that are shown while there is room for any unit at all. -/
def fitting : (room : Nat) → List Nat → List Nat
  | _, [] => []
  | room, u :: us => if room = 0 then [] else u :: fitting (room - unitBytes u) us

/-- The units of a key as messages show them: names with other characters than those of ASCII are cut, and
all names end at a null character. -/
def shown (k : Key) : List Nat :=
  let units := match k with
    | .index n => Text.units (Text.decimal n)
    | .name c => c.units
    | .symbol d => Text.units d.toList
  (if units.all (decide <| · < 0x80) then units else fitting 58 units).takeWhile (· != 0)

end Key
end ScriptBridge.Script
