import ScriptBridge.Config
import ScriptBridge.Text.Word

/-! The characters of scripts by their use. -/
namespace ScriptBridge.Script

def isLineEnd (c : Char) : Bool := [0x0A, 0x0D, 0x2028, 0x2029].contains c.toNat

/-- Blanks and line ends. -/
def isBlank (c : Char) : Bool :=
  decide (9 ≤ c.toNat ∧ c.toNat ≤ 13) || c == ' '
    || [0xA0, 0xFEFF, 0x1680, 0x2028, 0x2029, 0x202F, 0x205F, 0x3000].contains c.toNat
    || decide (0x2000 ≤ c.toNat ∧ c.toNat ≤ 0x200A)

def isWordStart (c : Char) : Bool := isIdentifierStart c || Text.beginsWord c

def isWordPart (c : Char) : Bool := isIdentifierPart c || Text.standsInWord c

end ScriptBridge.Script
