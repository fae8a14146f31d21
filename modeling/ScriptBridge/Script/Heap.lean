import Std.Data.TreeMap
import ScriptBridge.Script.Value

/-! The heap of the script language: objects with their properties, and the arrays, functions, maps and
proxies among them. -/
namespace ScriptBridge.Script

structure Property where
  value : Value
  writable : Bool
  enumerable : Bool
  configurable : Bool
  deriving DecidableEq, Repr, Inhabited

/-- A property as an assignment makes it. -/
def Property.plain (v : Value) : Property := ⟨v, true, true, true⟩

/-- A property that is not enumerated, as the language's own objects have them. -/
def Property.hidden (v : Value) : Property := ⟨v, true, false, true⟩

/-- What a proxy does when a property of it is to be defined: it passes the request to its target, or it
declines, or it claims to have done it, or it throws. Everything else goes to the target. -/
inductive Trap where
  | forward | decline | claim
  | throw (message : String)
  deriving DecidableEq, Repr, Inhabited

/-- The functions of pages. -/
inductive Body where
  | returnNothing
  | returnFirst
  | returnArguments
  | returnCount
  | returnThis
  | returnFresh
  /-- adds one to the property `hits` of the receiver -/
  | countHit
  | throwError (message : String)
  deriving DecidableEq, Repr, Inhabited

/-- The language's own functions. Of those that scripts have no use for it is only known whether they make
objects. -/
inductive Builtin where
  | array | isArray
  | object | defineProperty | freeze | seal | preventExtensions | create | assign
  | hasOwnProperty | objectText | objectValue
  | call | apply | functionText
  | arrayText | join
  /-- the text of a value that is no object -/
  | valueText
  | map | mapGet | mapSet
  | error | errorText
  | proxy
  | other (constructs : Bool)
  deriving DecidableEq, Repr, Inhabited

/-- What the functions of a handle table remember: the table, the test for own properties, the map of the
handles of the objects that refuse a tag, the name of the tag and the word before handles. -/
structure Memory where
  table : Value
  hasOwn : Value
  untagged : Value
  tag : String
  scheme : String
  deriving DecidableEq, Repr, Inhabited

/-- The functions of a handle table. -/
inductive Tool where
  | tag | register | convert
  deriving DecidableEq, Repr, Inhabited

inductive Code where
  | body (b : Body)
  /-- a function without anything in it -/
  | blank
  | builtin (b : Builtin)
  | tool (t : Tool) (m : Memory)
  deriving DecidableEq, Repr, Inhabited

/-- Whether a function makes objects. -/
def Code.constructs : Code → Bool
  | builtin .array | builtin .object | builtin .map | builtin .error | builtin .proxy => true
  | builtin (.other b) => b
  | builtin _ => false
  | _ => true

inductive Kind where
  | ordinary
  /-- an array with its length, which may have become fixed -/
  | array (length : Nat) (lengthWritable : Bool)
  | function (code : Code)
  | proxy (target : Address) (trap : Trap)
  | map (entries : List (Value × Value))
  | error
  /-- the arguments of a call -/
  | arguments
  deriving DecidableEq, Repr, Inhabited

/-- An object. Its properties under indices are apart from those under names. -/
structure Object where
  kind : Kind := .ordinary
  proto : Option Address := none
  extensible : Bool := true
  elements : Std.TreeMap Nat Property := ∅
  names : List (Key × Property) := []
  deriving Repr, Inhabited

namespace Object

/-- Properties with the value of one key set; a new key comes last. -/
def putInto (k : Key) (p : Property) : List (Key × Property) → List (Key × Property)
  | [] => [(k, p)]
  | (l, q) :: rest => if l = k then (l, p) :: rest else (l, q) :: putInto k p rest

def property? (o : Object) : Key → Option Property
  | .index n => o.elements[n]?
  | k => (o.names.find? fun p => p.1 = k).map Prod.snd

def put (o : Object) (k : Key) (p : Property) : Object :=
  match k with
  | .index n => { o with elements := o.elements.insert n p }
  | k => { o with names := putInto k p o.names }

def erase (o : Object) : Key → Object
  | .index n => { o with elements := o.elements.erase n }
  | k => { o with names := o.names.filter fun p => p.1 ≠ k }

/-- The properties in order: the indices first. -/
def properties (o : Object) : List (Key × Property) :=
  (o.elements.toList.map fun p => (.index p.1, p.2)) ++ o.names

end Object

/-- How firmly an object is closed: nothing can be added to it, or nothing removed either, or nothing
changed at all. -/
inductive Closure where
  | inextensible | sealed | frozen
  deriving DecidableEq, Repr, Inhabited

def Closure.change (c : Closure) (p : Property) : Property :=
  { p with writable := p.writable && c != .frozen, configurable := p.configurable && c == .inextensible }

def Object.close (o : Object) (c : Closure) : Object :=
  { o with
    kind := match o.kind with
      | .array n w => .array n (w && c != .frozen)
      | k => k
    extensible := false
    elements := o.elements.map fun _ p => c.change p
    names := o.names.map fun p => (p.1, c.change p.2) }

/-- Objects lie in the order in which they were made. -/
structure Heap where
  objects : Array Object
  deriving Repr, Inhabited

namespace Heap

/-- The places of the global object and of the objects that values inherit from. -/
def global : Address := 0
def objectProto : Address := 1
def functionProto : Address := 2
def arrayProto : Address := 3
def mapProto : Address := 4
def errorProto : Address := 5
def stringProto : Address := 6
def numberProto : Address := 7
def booleanProto : Address := 8
def symbolProto : Address := 9

def object (h : Heap) (a : Address) : Object := h.objects[a]?.getD {}

def setObject (h : Heap) (a : Address) (o : Object) : Heap := ⟨h.objects.setIfInBounds a o⟩

def alloc (h : Heap) (o : Object) : Heap × Address := (⟨h.objects.push o⟩, h.objects.size)

/-- The object behind proxies. A proxy's target is older than the proxy. -/
def storage (h : Heap) (a : Address) : Address :=
  match (h.object a).kind with
  | .proxy t _ => if t < a then storage h t else a
  | _ => a
termination_by a

/-- The object that holds the properties seen at an address. -/
def stored (h : Heap) (a : Address) : Object := h.object (h.storage a)

def isProxy (h : Heap) (a : Address) : Bool :=
  match (h.object a).kind with
  | .proxy .. => true
  | _ => false

def isArray (h : Heap) (a : Address) : Bool :=
  match (h.stored a).kind with
  | .array .. => true
  | _ => false

def code? (h : Heap) (a : Address) : Option Code :=
  match (h.stored a).kind with
  | .function c => some c
  | _ => none

def codeOf? (h : Heap) : Value → Option Code
  | .object a => h.code? a
  | _ => none

/-- The length of an array. -/
def length (h : Heap) (a : Address) : Nat :=
  match (h.stored a).kind with
  | .array n _ => n
  | _ => 0

/-- The own property of an object; the length of an array is one. -/
def own? (h : Heap) (a : Address) (k : Key) : Option Property :=
  let o := h.stored a
  match o.kind with
  | .array n w => if k = .length then some ⟨.nat n, w, false, false⟩ else o.property? k
  | _ => o.property? k

/-- The property of an object or of the nearest of a number of objects that it inherits from. -/
def findWithin (h : Heap) (k : Key) : Nat → Address → Option Property
  | 0, _ => none
  | n + 1, a =>
    match h.own? a k with
    | some p => some p
    | none =>
      match (h.stored a).proto with
      | some b => findWithin h k n b
      | none => none

def find? (h : Heap) (a : Address) (k : Key) : Option Property := h.findWithin k (h.objects.size + 1) a

/-- Whether an object is found among a number of objects that another one inherits from, or is that one. -/
def reachesWithin (h : Heap) (goal : Address) : Nat → Address → Bool
  | 0, _ => false
  | n + 1, a =>
    a == goal ||
      match (h.stored a).proto with
      | some b => reachesWithin h goal n b
      | none => false

def reaches (h : Heap) (a goal : Address) : Bool := h.reachesWithin goal (h.objects.size + 1) a

/-- What a value inherits from. -/
def proto? (h : Heap) : Value → Option Address
  | .undefined | .null => none
  | .bool _ => some booleanProto
  | .number _ => some numberProto
  | .string _ => some stringProto
  | .symbol _ => some symbolProto
  | .object a => (h.stored a).proto

/-- The value of a property, found on an object or on those that it inherits from. The name of what an
object inherits from is answered for the heirs of the object that all others inherit from. -/
def get (h : Heap) (a : Address) (k : Key) : Value :=
  match h.find? a k with
  | some p => p.value
  | none =>
    if k = .proto && h.reaches a objectProto then ((h.stored a).proto.map Value.object).getD .null
    else .undefined

def has (h : Heap) (a : Address) (k : Key) : Bool :=
  (h.find? a k).isSome || (k = .proto && h.reaches a objectProto)

end Heap

/-- The changes that the definition of a property asks for. -/
structure Descriptor where
  value : Option Value := none
  writable : Option Bool := none
  enumerable : Option Bool := none
  configurable : Option Bool := none
  deriving DecidableEq, Repr, Inhabited

namespace Descriptor

def ofProperty (p : Property) : Descriptor :=
  ⟨some p.value, some p.writable, some p.enumerable, some p.configurable⟩

def ofValue (v : Value) : Descriptor := { value := some v }

/-- The property made where there is none. -/
def fresh (d : Descriptor) : Property :=
  ⟨d.value.getD .undefined, d.writable.getD false, d.enumerable.getD false, d.configurable.getD false⟩

/-- The property made of an existing one. -/
def change (d : Descriptor) (p : Property) : Property :=
  ⟨d.value.getD p.value, d.writable.getD p.writable, d.enumerable.getD p.enumerable,
    d.configurable.getD p.configurable⟩

/-- Whether an existing property takes the changes: a configurable one takes all, another one keeps its
attributes but that it may become read-only, and a read-only one keeps its value. -/
def fits (d : Descriptor) (p : Property) : Bool :=
  p.configurable ||
    (d.configurable != some true && (d.enumerable.getD p.enumerable == p.enumerable)
      && (p.writable || (d.writable != some true && d.value.all fun v => v.identical p.value)))

end Descriptor

/-- How a definition ends. A proxy may decline it without a word, and may throw. -/
inductive Defined where
  | accepted
  | declined
  | refused (why : String)
  | thrown (why : String)
  deriving DecidableEq, Repr, Inhabited

def Defined.notExtensible : Defined := refused "object is not extensible"
def Defined.notConfigurable : Defined := refused "property is not configurable"

namespace Object

/-- Defines a property. An index at or past the end of an array makes it longer. -/
def define (o : Object) (k : Key) (d : Descriptor) : Defined × Object :=
  match o.property? k with
  | some p => if d.fits p then (.accepted, o.put k (d.change p)) else (.notConfigurable, o)
  | none =>
    if !o.extensible then (.notExtensible, o)
    else
      match o.kind, k with
      | .array n w, .index i =>
        if i < n then (.accepted, o.put k d.fresh)
        else if w then (.accepted, { o.put k d.fresh with kind := .array (i + 1) w })
        else (.refused "'length' is read-only", o)
      | _, _ => (.accepted, o.put k d.fresh)

/-- The array with another length; elements past the new end are gone. -/
def resize (o : Object) (n : Nat) (lengthWritable : Bool) : Object :=
  { o with kind := .array n lengthWritable, elements := o.elements.filter fun i _ => i < n }

/-- Defines the length of an array. -/
def defineLength (o : Object) (length : Nat) (lengthWritable : Bool) (d : Descriptor) : Defined × Object :=
  if !d.fits ⟨.nat length, lengthWritable, false, false⟩ then (.notConfigurable, o)
  else
    let w := d.writable.getD lengthWritable
    match d.value with
    | none => (.accepted, o.resize length w)
    | some (.number x) =>
      match x.length? with
      | some n => (.accepted, o.resize n w)
      | none => (.thrown "invalid array length", o)
    | some _ => (.thrown "invalid array length", o)

end Object

namespace Heap

/-- Defines a property of an object that is no proxy. -/
def defineStored (h : Heap) (a : Address) (k : Key) (d : Descriptor) : Defined × Heap :=
  let o := h.object a
  let (outcome, o) := match o.kind with
    | .array n w => if k = .length then o.defineLength n w d else o.define k d
    | _ => o.define k d
  (outcome, h.setObject a o)

/-- A proxy's claim to have defined a property stands only where its target could have had it. -/
def claimStands (h : Heap) (target : Address) (k : Key) (d : Descriptor) : Bool :=
  match h.own? target k with
  | some p => d.fits p
  | none => (h.stored target).extensible

/-- Defines a property of an object. -/
def define (h : Heap) (a : Address) (k : Key) (d : Descriptor) : Defined × Heap :=
  match (h.object a).kind with
  | .proxy t trap =>
    match trap with
    | .forward => if t < a then define h t k d else (.declined, h)
    | .decline => (.declined, h)
    | .claim =>
      (if h.claimStands t k d then .accepted else .thrown "proxy: inconsistent defineProperty", h)
    | .throw message => (.thrown message, h)
  | _ => h.defineStored a k d
termination_by a

/-- Removes an own property; `false` when it has to stay. -/
def delete (h : Heap) (a : Address) (k : Key) : Bool × Heap :=
  match h.own? a k with
  | none => (true, h)
  | some p =>
    if p.configurable then (true, h.setObject (h.storage a) ((h.stored a).erase k)) else (false, h)

/-- Lets an object inherit from another one; `false` when it would inherit from itself. -/
def setProto (h : Heap) (a : Address) (proto : Option Address) : Bool × Heap :=
  if proto.any fun b => h.reaches b (h.storage a) then (false, h)
  else (true, h.setObject (h.storage a) { h.stored a with proto })

def close (h : Heap) (a : Address) (c : Closure) : Heap :=
  h.setObject (h.storage a) ((h.stored a).close c)

end Heap
end ScriptBridge.Script
