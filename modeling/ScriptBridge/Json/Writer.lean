import ScriptBridge.Json

/-! Writing of JSON: string literals, and documents laid out with an indentation of two spaces. -/
namespace ScriptBridge.Json

def hexPair (n : Nat) : List Char := [Nat.digitChar (n / 16), Nat.digitChar (n % 16)]

/-- Controls are escaped, those with a letter of their own by it. -/
def escapedChar (c : Char) : List Char :=
  if c = '"' then ['\\', '"']
  else if c = '\\' then ['\\', '\\']
  else if c = '\n' then ['\\', 'n']
  else if c = '\r' then ['\\', 'r']
  else if c = '\t' then ['\\', 't']
  else if c = Char.ofNat 8 then ['\\', 'b']
  else if c = Char.ofNat 12 then ['\\', 'f']
  else if c.toNat < 0x20 then ['\\', 'u', '0', '0'] ++ hexPair c.toNat
  else [c]

def literal (s : List Char) : List Char := '"' :: s.flatMap escapedChar ++ ['"']

def Number.write (n : Number) : List Char :=
  (if n.negative then ['-'] else []) ++ n.whole
    ++ (if n.fraction.isEmpty then [] else '.' :: n.fraction)
    ++ match n.exponent with
      | none => []
      | some (below, ds) => 'e' :: (if below then '-' :: ds else ds)

/-- A new line, indented to a depth. -/
def newLine (depth : Nat) : List Char := '\n' :: List.replicate (2 * depth) ' '

def separated (sep : List Char) : List (List Char) → List Char
  | [] => []
  | [x] => x
  | x :: rest => x ++ sep ++ separated sep rest

mutual
/-- A value whose first line stands at the given depth. A string without a value is written empty; no
document made by this library holds one. -/
def pretty (depth : Nat) : Json → List Char
  | .null => ['n', 'u', 'l', 'l']
  | .bool b => if b then ['t', 'r', 'u', 'e'] else ['f', 'a', 'l', 's', 'e']
  | .number n => n.write
  | .text s => literal (s.getD "").toList
  | .array [] => ['[', ']']
  | .array (v :: vs) =>
    '[' :: separated [','] (prettyItems (depth + 1) (v :: vs)) ++ newLine depth ++ [']']
  | .object [] => ['\x7b', '\x7d']
  | .object (f :: fs) =>
    '\x7b' :: separated [','] (prettyFields (depth + 1) (f :: fs)) ++ newLine depth ++ ['\x7d']

def prettyItems (depth : Nat) : List Json → List (List Char)
  | [] => []
  | v :: rest => (newLine depth ++ pretty depth v) :: prettyItems depth rest

def prettyFields (depth : Nat) : List (Option String × Json) → List (List Char)
  | [] => []
  | (k, v) :: rest =>
    (newLine depth ++ literal (k.getD "").toList ++ [':', ' '] ++ pretty depth v) :: prettyFields depth rest
end

end ScriptBridge.Json
