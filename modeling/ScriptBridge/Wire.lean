import ScriptBridge.Double.Layout
import ScriptBridge.Handle
import ScriptBridge.Text.Quoted

/-! Values as they cross the boundary to the engine. There is one kind of number, and a script object
travels as a token, which is a string like any other. -/
namespace ScriptBridge

inductive Wire where
  | null
  | bool (b : Bool)
  | number (x : Double)
  | text (s : String)
  | array (items : List Wire)
  deriving Inhabited

namespace Wire

def ofHandle (h : Handle) : Wire := .text h.token

def isNull : Wire → Bool
  | .null => true
  | _ => false

/-- The handle of a value that is a token. -/
def handle? : Wire → Option Handle
  | .text s => Handle.ofToken? s
  | _ => none

def kind : Wire → String
  | .null => "null"
  | .bool _ => "bool"
  | .number _ => "number"
  | .text _ => "string"
  | .array _ => "array"

mutual
/-- The form in which a value is shown in messages. -/
def inspect : Wire → String
  | .null => "Null"
  | .bool b => "Bool(" ++ (if b then "true" else "false") ++ ")"
  | .number x => "Number(" ++ String.ofList (x.text .message) ++ ")"
  | .text s => "String(" ++ Text.quoted s ++ ")"
  | .array items => "Array([" ++ ", ".intercalate (inspectItems items) ++ "])"

def inspectItems : List Wire → List String
  | [] => []
  | w :: rest => w.inspect :: inspectItems rest
end

end Wire
end ScriptBridge
