import ScriptBridge.Double.Narrowing
import ScriptBridge.Event
import ScriptBridge.Session
import ScriptBridge.Shape

/-! Conversion between wire values and native values. A shape says what a wire value is to become; what
the shape does not speak of passes through by kind. -/
namespace ScriptBridge

mutual
/-- The native value of the same kind as a wire value. -/
def Wire.passThrough : Wire → Native
  | .null => .null
  | .bool b => .bool b
  | .number x => .double x
  | .text s => .text s
  | .array items => .array (passThroughItems items)

def Wire.passThroughItems : List Wire → List Native
  | [] => []
  | w :: rest => w.passThrough :: passThroughItems rest
end

mutual
/-- The wire value of a native value: numbers lose their kind, references become their tokens, and what
no script has becomes null. -/
def Native.toWire : Native → Wire
  | .null => .null
  | .bool b => .bool b
  | .int n => .number (Double.ofInt n.toInt)
  | .long n => .number (Double.ofInt n.toInt)
  | .double x => .number x
  | .text s => .text s
  | .array items => .array (toWireItems items)
  | .ref r => .ofHandle r.handle
  | .foreign _ => .null

def Native.toWireItems : List Native → List Wire
  | [] => []
  | v :: rest => v.toWire :: toWireItems rest
end

/-- The text that stands for a value which is not a token. -/
def Wire.malformedText : Wire → String
  | .text s => s
  | w => "<" ++ w.kind ++ ">"

/-- A conversion with the events on its way, also of a conversion that fails. -/
structure Converted (α : Type) where
  result : Except ConversionError α
  events : List Event

namespace Session

/-- The handle that a malformed token stands for: none, or the root's by the lenient policy. -/
def repair (s : Session) (text : String) : Converted Handle :=
  match s.config.tokenPolicy with
  | .strict => ⟨.error (.malformedToken text), []⟩
  | .lenient => ⟨.ok Handle.root, [.repairedToken text]⟩

/-- The reference that a value stands for. -/
def referenceOf (s : Session) (name : String) (w : Wire) : Converted Native :=
  match w.handle? with
  | some h => ⟨.ok (.ref (s.mint h name)), []⟩
  | none =>
    let repaired := s.repair w.malformedText
    ⟨repaired.result.map fun h => .ref (s.mint h name), repaired.events⟩

mutual
/-- The native value that a wire value stands for where a shape is expected. -/
def fromWire (s : Session) : Wire → Shape → Converted Native
  | .null, _ => ⟨.ok .null, []⟩
  | .number x, .int => ⟨.ok (.int x.toInt32), []⟩
  | .number x, .long => ⟨.ok (.long x.toInt64), []⟩
  | .array items, .array element =>
    let converted := fromWireItems s items element
    ⟨converted.result.map .array, converted.events⟩
  | w, .capability name => s.referenceOf name w
  | w, _ => ⟨.ok w.passThrough, []⟩

/-- The first item that fails ends the conversion. -/
def fromWireItems (s : Session) : List Wire → Shape → Converted (List Native)
  | [], _ => ⟨.ok [], []⟩
  | w :: rest, element =>
    let first := fromWire s w element
    match first.result with
    | .error e => ⟨.error e, first.events⟩
    | .ok v =>
      let others := fromWireItems s rest element
      ⟨others.result.map (v :: ·), first.events ++ others.events⟩
end

end Session
end ScriptBridge
