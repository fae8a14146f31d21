import ScriptBridge.Script.Run

/-! Conversion of values between kinds. An object is converted by its own methods, which are functions of
the page or the language's own; `invoke` calls them. -/
namespace ScriptBridge.Script

namespace Heap

def isCallable (h : Heap) (v : Value) : Bool := (h.codeOf? v).isSome

/-- The word for the type of a value. -/
def typeWord (h : Heap) : Value → String
  | .undefined => "undefined"
  | .null => "object"
  | .bool _ => "boolean"
  | .number _ => "number"
  | .string _ => "string"
  | .symbol _ => "symbol"
  | .object a => if (h.code? a).isSome then "function" else "object"

end Heap

namespace Run

variable (invoke : Caller)

/-- What the first of the named methods gives that gives something other than an object. -/
def primitiveBy (v : Value) : List String → Run Value
  | [] => fail "toPrimitive"
  | name :: names => do
    let f ← read v (.ofText name)
    if (← get).isCallable f then
      match ← invoke f v [] with
      | .object _ => primitiveBy v names
      | w => return w
    else primitiveBy v names

/-- The value that stands for an object, as a text or as it comes. -/
def primitive (asText : Bool) (v : Value) : Run Value :=
  match v with
  | .object _ => primitiveBy invoke v (if asText then ["toString", "valueOf"] else ["valueOf", "toString"])
  | v => return v

/-- The text of a value that is no object. -/
def primitiveText : Value → Run Content
  | .undefined => return .text "undefined"
  | .null => return .text "null"
  | .bool b => return .text (if b then "true" else "false")
  | .number x => return .ofChars x.text
  | .string c => return c
  | .symbol _ => fail "cannot convert symbol to string"
  | .object _ => fail "toPrimitive"

def text (v : Value) : Run Content := do primitiveText (← primitive invoke true v)

/-- The key that a value names. -/
def key (v : Value) : Run Key :=
  match v with
  | .number (.int n) => if 0 ≤ n.toInt then return .ofNat n.toInt.toNat else return .ofChars (Number.int n).text
  | .string c => return .ofContent c
  | v => do
    match ← primitive invoke true v with
    | .symbol d => return .symbol d
    | w => return .ofContent (← primitiveText w)

/-- The number of a value that is no object. -/
def primitiveNumber : Value → Run Number
  | .undefined => return .float Double.nan
  | .null => return .ofNat 0
  | .bool b => return .ofNat (if b then 1 else 0)
  | .number x => return x
  | .string c => return .ofDouble c.toDouble
  | .symbol _ => fail "cannot convert symbol to number"
  | .object _ => fail "toPrimitive"

def number (v : Value) : Run Number := do primitiveNumber (← primitive invoke false v)

/-- The sum of two values: where one stands for a string, they are put together as texts. -/
def sum (v w : Value) : Run Value := do
  match v, w with
  | .number x, .number y => return .number (x.add y)
  | v, w =>
    let v ← primitive invoke false v
    let w ← primitive invoke false w
    match v, w with
    | .string _, _ | _, .string _ => return .string ((← primitiveText v).append (← primitiveText w))
    | v, w => return .number ((← primitiveNumber v).add (← primitiveNumber w))

/-- Whether a number of steps is below a limit. -/
def below (i : Nat) (limit : Value) : Run Bool := do
  match limit with
  | .number x => return (Number.ofNat i).less x
  | v => return (Number.ofNat i).less (← number invoke v)

/-- A value as the length of an array; objects are converted twice. -/
def lengthValue (v : Value) : Run Value := do
  match v with
  | .object _ =>
    let _ ← number invoke v
    return .number (← number invoke v)
  | v => return .number (← primitiveNumber v)

/-- Assigns a property, where the length of an array takes a number. -/
def store (base : Value) (k : Key) (v : Value) : Run Unit := do
  match base with
  | .object a =>
    if k = .length && (← get).isArray a then assign base k (← lengthValue invoke v) else assign base k v
  | base => assign base k v

end Run
end ScriptBridge.Script
