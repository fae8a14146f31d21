import ScriptBridge.Script.Heap

/-! Runs of scripts. A run changes the heap and ends in a value or by throwing; what it has changed
before it throws stays changed. All code is strict: an assignment that cannot be made throws. -/
namespace ScriptBridge.Script

/-- What is thrown: an error object, of which only the message is ever seen, or some other value. -/
inductive Thrown where
  | error (message : Content)
  | value (v : Value)
  deriving DecidableEq, Repr, Inhabited

abbrev Run (α : Type) := ExceptT Thrown (StateM Heap) α

/-- The way in which functions are called: with the function, the receiver and the arguments. -/
abbrev Caller := Value → Value → List Value → Run Value

namespace Run

def fail {α : Type} (message : String) : Run α := throw (.error (.text message))

def raise {α : Type} (v : Value) : Run α := throw (.value v)

/-- The units for which messages about names have room. -/
def messageRoom : Nat := 255

/-- Fails with a message about a name. -/
def failNamed {α : Type} (before : String) (k : Key) (after : String) : Run α :=
  let units := Text.units before.toList ++ k.shown ++ Text.units after.toList
  throw (.error (.ofUnits (units.take messageRoom)))

def failUndefined {α : Type} (x : String) : Run α := failNamed "'" (.ofText x) "' is not defined"

def failReadOnly {α : Type} (k : Key) : Run α := failNamed "'" k "' is read-only"

/-- Makes an object. -/
def alloc (o : Object) : Run Value := do
  let (h, a) := (← get).alloc o
  set h
  return .object a

def allocPlain : Run Value := alloc { proto := some Heap.objectProto }

def elementsOf (items : List Value) : Std.TreeMap Nat Property :=
  Std.TreeMap.ofList (items.zipIdx.map fun p => (p.2, Property.plain p.1))

/-- Makes an array of a length with items at the given places. -/
def allocElements (length : Nat) (elements : Std.TreeMap Nat Property) : Run Value :=
  alloc { kind := .array length true, proto := some Heap.arrayProto, elements }

def allocArray (items : List Value) : Run Value := allocElements items.length (elementsOf items)

/-- Makes a function, with the object that its instances inherit from. -/
def allocFunction (code : Code) (name : String) (arity : Nat) : Run Value := do
  let a := (← get).objects.size
  let f ← alloc {
    kind := .function code
    proto := some Heap.functionProto
    names := [
      (.length, ⟨.nat arity, false, false, true⟩),
      (.ofText "name", ⟨.text name, false, false, true⟩),
      (.ofText "prototype", ⟨.object (a + 1), true, false, false⟩)] }
  let _ ← alloc { proto := some Heap.objectProto, names := [(.ofText "constructor", .hidden f)] }
  return f

/-- Reads a property of a value. -/
def read (base : Value) (k : Key) : Run Value := do
  let inherited : Run Value := do
    let h ← get
    match h.proto? base with
    | some a => return if k = .proto then .object a else h.get a k
    | none => return .undefined
  match base with
  | .undefined => failNamed "cannot read property '" k "' of undefined"
  | .null => failNamed "cannot read property '" k "' of null"
  | .object a => return (← get).get a k
  | .string c =>
    match k with
    | .index n =>
      match c.unit? n with
      | some u => return .string u
      | none => inherited
    | k => if k = .length then return .nat c.length else inherited
  | _ => inherited

/-- Ends a definition; what a proxy declines is passed over. -/
def accept (outcome : Defined) : Run Unit :=
  match outcome with
  | .accepted | .declined => return ()
  | .refused why | .thrown why => fail why

def define (a : Address) (k : Key) (d : Descriptor) : Run Defined := do
  let (outcome, h) := (← get).define a k d
  set h
  return outcome

/-- Lets an object inherit from the object given, or from none. -/
def assignProto (a : Address) (v : Value) : Run Unit := do
  let change (p : Option Address) : Run Unit := do
    if (← get).stored a |>.extensible then
      let (done, h) := (← get).setProto a p
      set h
      if !done then fail "circular prototype chain"
    else if (← get).stored a |>.proto |> (· ≠ p) then fail "object is not extensible"
  match v with
  | .object b => change (some b)
  | .null => change none
  | _ => return ()

/-- Gives an object a property of its own, or changes the value of one. A proxy is asked to define it. -/
def assignOwn (a : Address) (k : Key) (v : Value) : Run Unit := do
  let h ← get
  if (h.own? a k).isSome then
    match ← define a k (.ofValue v) with
    | .refused _ => if h.isProxy a then return () else failReadOnly k
    | outcome => accept outcome
  else accept (← define a k (.ofProperty (.plain v)))

/-- Assigns a property of a value that is no object, which holds none; assigning what it inherits from is
passed over. -/
def assignNowhere (base : Value) (k : Key) : Run Unit := do
  let h ← get
  match h.proto? base with
  | some a =>
    match h.find? a k with
    | some p => if p.writable then fail "not an object" else failReadOnly k
    | none => if k = .proto && h.reaches a Heap.objectProto then return () else fail "not an object"
  | none => fail "not an object"

/-- Assigns a property of a value. The nearest property of the name, be it inherited, may forbid it. -/
def assign (base : Value) (k : Key) (v : Value) : Run Unit := do
  match base with
  | .undefined => failNamed "cannot set property '" k "' of undefined"
  | .null => failNamed "cannot set property '" k "' of null"
  | .object a =>
    let h ← get
    match h.find? a k with
    | some p => if p.writable then assignOwn a k v else failReadOnly k
    | none => if k = .proto && h.reaches a Heap.objectProto then assignProto a v else assignOwn a k v
  | .string _ => if k = .length then failReadOnly k else assignNowhere base k
  | _ => assignNowhere base k

def delete (base : Value) (k : Key) : Run Value := do
  match base with
  | .undefined | .null => fail "cannot convert to object"
  | .object a =>
    let (removed, h) := (← get).delete a k
    set h
    if removed then return .bool true else fail "could not delete property"
  | _ => return .bool true

/-- The value of a global name, when it has one. -/
def global? (x : String) : Run (Option Value) := do
  let h ← get
  let k := Key.ofText x
  return if h.has Heap.global k then some (h.get Heap.global k) else none

def global (x : String) : Run Value := do
  match ← global? x with
  | some v => return v
  | none => failUndefined x

/-- Calls a method of a value. -/
def method (invoke : Caller) (base : Value) (name : String) (args : List Value) : Run Value := do
  invoke (← read base (.ofText name)) base args

end Run
end ScriptBridge.Script
