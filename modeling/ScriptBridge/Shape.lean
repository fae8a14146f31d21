import ScriptBridge.Text.Quoted

/-! Shapes: what a caller expects a value from the engine to be. -/
namespace ScriptBridge

inductive Shape where
  | void
  | bool
  | text
  | double
  | int
  | long
  | array (element : Shape)
  /-- a reference, typed by the capability of this name -/
  | capability (name : String)
  | any
  deriving DecidableEq, Repr, Inhabited

namespace Shape

def isVoid : Shape → Bool
  | .void => true
  | _ => false

def name : Shape → String
  | .void => "void"
  | .bool => "bool"
  | .text => "string"
  | .double => "double"
  | .int => "int"
  | .long => "long"
  | .array element => element.name ++ "[]"
  | .capability name => name
  | .any => "any"

/-- The form in which a shape is shown in messages. -/
def inspect : Shape → String
  | .void => "Void"
  | .bool => "Bool"
  | .text => "String"
  | .double => "Double"
  | .int => "Int"
  | .long => "Long"
  | .array element => "Array(" ++ element.inspect ++ ")"
  | .capability name => "Capability(" ++ Text.quoted name ++ ")"
  | .any => "Any"

end Shape
end ScriptBridge
