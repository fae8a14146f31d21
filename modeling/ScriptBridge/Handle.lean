import ScriptBridge.Text.Decimal

/-! Handles: the numbers by which the native side names script objects, and the tokens that carry them
across the boundary. -/
namespace ScriptBridge

-- Powers are those of the core library, whatever algebra is there besides.
attribute [local instance (high)] instPowNat

/-- The index of a slot of the handle table. -/
structure Handle where
  raw : UInt32
  deriving DecidableEq, Repr, Inhabited

namespace Handle

open Text (decimal)

/-- The slot of the root object. -/
def root : Handle := ⟨0⟩

def isRoot (h : Handle) : Bool := h == root

def index (h : Handle) : Nat := h.raw.toNat

/-- The handle of an index, when the index has 32 bits. -/
def ofIndex? (n : Nat) : Option Handle := if n < 2 ^ (32 : Nat) then some ⟨UInt32.ofNat n⟩ else none

/-- The word before the index in a token. -/
def scheme : List Char := ['n', 's', 'i', 'I', 'd', '=']

def numeralText (h : Handle) : List Char := decimal h.index

/-- The handle's decimal numeral. -/
def numeral (h : Handle) : String := String.ofList h.numeralText

def token (h : Handle) : String := String.ofList (scheme ++ h.numeralText)

/-- A token is the scheme and a decimal numeral of at least one ASCII digit, whose value has 32 bits.
Leading zeros are accepted. -/
def ofToken? (s : String) : Option Handle :=
  let text := s.toList
  let digits := text.drop scheme.length
  if scheme.isPrefixOf text && !digits.isEmpty && digits.all Char.isDigit then
    ofIndex? (Text.numeral digits)
  else none

end Handle
end ScriptBridge
