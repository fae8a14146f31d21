import ScriptBridge.Script.Builtin

/-! The functions of a handle table. The converter replaces every object by the token of its slot, and gives
a slot to those that have none. A slot is remembered on the object itself, by a tag, and in a map where the
object refuses the tag. The language's own functions are looked up where they are used. -/
namespace ScriptBridge.Script.Converter

/-- The tag is hidden, and can be changed and removed. -/
def tagDescriptor (handle : Value) : Descriptor := ⟨some handle, some true, some false, some true⟩

variable (invoke : Caller) (m : Memory)

/-- Asks for the tag to be defined. -/
def defineTag (value handle : Value) : Run Unit := do
  let object ← Run.global "Object"
  let f ← Run.read object (.ofText "defineProperty")
  if (← get).codeOf? f = some (.builtin .defineProperty) then
    match value with
    | .object a => Run.defineProperty a (.ofText m.tag) (tagDescriptor handle)
    | _ => Run.fail "not an object"
  else
    let descriptor ← Run.alloc { proto := some Heap.objectProto, names := [
      (.ofText "value", .plain handle), (.ofText "enumerable", .plain (.bool false)),
      (.ofText "configurable", .plain (.bool true)), (.ofText "writable", .plain (.bool true))] }
    let _ ← invoke f object [value, .text m.tag, descriptor]

/-- Whether a value has a tag of its own. -/
def hasTag (value : Value) : Run Bool := do
  return (← Run.method invoke m.hasOwn "call" [value, .text m.tag]).truth

def readTag (value : Value) : Run Value := Run.read value (.ofText m.tag)

/-- Tags a value, and says whether the tag can be read back. -/
def tag (value handle : Value) : Run Bool := do
  let defined ← try
      defineTag invoke m value handle
      pure true
    catch _ => pure false
  if defined then
    if ← hasTag invoke m value then return (← readTag m value).same handle else return false
  else return false

/-- Whether the slot that a handle names holds a value. -/
def holds (handle value : Value) : Run Bool := do
  return (← Run.read m.table (← Run.key invoke handle)).same value

/-- The handle that a value's own tag gives, when the slot agrees. -/
def taggedHandle? (value : Value) : Run (Option Value) := do
  if ← hasTag invoke m value then
    let tagged ← readTag m value
    if ← holds invoke m tagged value then return some tagged else return none
  else return none

/-- The handle that the map gives, when the slot agrees. -/
def knownHandle? (value : Value) : Run (Option Value) := do
  let known ← Run.method invoke m.untagged "get" [value]
  if known = .undefined then return none
  else if ← holds invoke m known value then return some known
  else return none

/-- Tags a value, or puts its handle into the map. -/
def remember (value handle : Value) : Run Unit := do
  if ← tag invoke m value handle then return ()
  else
    let _ ← Run.method invoke m.untagged "set" [value, handle]

/-- Gives a value the slot at the end of the table. -/
def append (value : Value) : Run Value := do
  let handle ← Run.read m.table .length
  Run.assign m.table (← Run.key invoke handle) value
  remember invoke m value handle
  return handle

/-- The handle of an object. -/
def register (value : Value) : Run Value := do
  match ← taggedHandle? invoke m value with
  | some handle => return handle
  | none =>
    match ← knownHandle? invoke m value with
    | some handle => return handle
    | none => append invoke m value

/-- The token of an object. -/
def token (value : Value) : Run Value := do
  Run.sum invoke (.text m.scheme) (← register invoke m value)

def isArray (value : Value) : Run Bool := do
  return (← Run.method invoke (← Run.global "Array") "isArray" [value]).truth

mutual
/-- The converted form of a value. The fuel bounds the nesting and the items on the way, and runs out on
arrays that contain themselves. -/
def convert : Nat → Value → Run Value
  | 0, _ => Run.fail "stack overflow"
  | fuel + 1, v => do
    if v.isNullish then return .null
    else if ← isArray invoke v then
      let maker ← Run.global "Array"
      let converted ← Run.construct invoke maker [← Run.read v .length]
      convertFrom v converted fuel 0
      return converted
    else
      match v with
      | .object _ => token invoke m v
      | v => return v

/-- Converts the items of an array from an index on. Conversion may make the array longer. -/
def convertFrom (source converted : Value) : Nat → Nat → Run Unit
  | 0, _ => Run.fail "stack overflow"
  | fuel + 1, i => do
    if ← Run.below invoke i (← Run.read source .length) then
      let item ← convert fuel (← Run.read source (.ofNat i))
      Run.store invoke converted (.ofNat i) item
      convertFrom source converted fuel (i + 1)
    else return ()
end

/-- Enough fuel for every value without cycles: on the way to an item each array is passed once, and
the table grows by one slot for each object at most. -/
def fuelFor (h : Heap) : Nat :=
  h.objects.foldl (fun n o =>
    match o.kind with
    | .array k _ => n + k + 4
    | _ => n + 4) 4

def run (v : Value) : Run Value := do convert invoke m (fuelFor (← get)) v

end ScriptBridge.Script.Converter
