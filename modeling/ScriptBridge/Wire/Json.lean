import ScriptBridge.Json.Reader
import ScriptBridge.Json.Writer
import ScriptBridge.Wire

/-! JSON texts of wire values and of handles. A wire value is written without a mark of its kind, so the
form of the text alone tells a reader which kind it is. -/
namespace ScriptBridge

namespace Wire

mutual
/-- Numbers that JSON cannot write become `null`. -/
def json : Wire → List Char
  | .null => ['n', 'u', 'l', 'l']
  | .bool b => if b then ['t', 'r', 'u', 'e'] else ['f', 'a', 'l', 's', 'e']
  | .number x => x.text .json
  | .text s => Json.literal s.toList
  | .array items => '[' :: Json.separated [','] (jsonItems items) ++ [']']

def jsonItems : List Wire → List (List Char)
  | [] => []
  | w :: rest => w.json :: jsonItems rest
end

mutual
/-- The wire value of a document. Objects have none, nor have numbers out of range. -/
def ofJson? : Json → Option Wire
  | .null => some .null
  | .bool b => some (.bool b)
  | .number n => n.toDouble?.map .number
  | .text s => s.map .text
  | .array items => (ofJsonItems? items).map .array
  | .object _ => none

def ofJsonItems? : List Json → Option (List Wire)
  | [] => some []
  | v :: rest =>
    match ofJson? v, ofJsonItems? rest with
    | some w, some ws => some (w :: ws)
    | _, _ => none
end

/-- The deepest nesting of arrays that is read. -/
def maxDepth : Nat := 127

def parseJson? (text : List Char) : Option Wire :=
  match Json.parse? text with
  | some v => if v.depth ≤ maxDepth then ofJson? v else none
  | none => none

end Wire

namespace Handle

def json (h : Handle) : List Char := h.numeralText

/-- Only a literal of a natural number with 32 bits is a handle. -/
def parseJson? (text : List Char) : Option Handle :=
  match Json.parse? text with
  | some (.number n) => n.toNat?.bind ofIndex?
  | _ => none

end Handle
end ScriptBridge
