/-! Texts as sequences of 16-bit units: a character beyond the first 65536 code points is a leading and a
trailing unit. -/
namespace ScriptBridge.Text

def isLeading (n : Nat) : Bool := decide (0xD800 ≤ n) && decide (n < 0xDC00)
def isTrailing (n : Nat) : Bool := decide (0xDC00 ≤ n) && decide (n < 0xE000)

def pairValue (leading trailing : Nat) : Nat := 0x10000 + (leading - 0xD800) * 0x400 + (trailing - 0xDC00)

def unitsOf (c : Char) : List Nat :=
  if c.toNat < 0x10000 then [c.toNat]
  else [0xD800 + (c.toNat - 0x10000) / 0x400, 0xDC00 + (c.toNat - 0x10000) % 0x400]

def units (text : List Char) : List Nat := text.flatMap unitsOf

/-- The text of a sequence of units. A leading unit needs a trailing one right behind it, and the
reverse. -/
def ofUnits? : List Nat → Option (List Char)
  | [] => some []
  | [n] => if isLeading n || isTrailing n then none else some [Char.ofNat n]
  | n :: m :: rest =>
    if isLeading n then
      if isTrailing m then (ofUnits? rest).map (Char.ofNat (pairValue n m) :: ·) else none
    else if isTrailing n then none
    else (ofUnits? (m :: rest)).map (Char.ofNat n :: ·)

end ScriptBridge.Text
