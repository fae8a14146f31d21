import ScriptBridge.Bootstrap
import ScriptBridge.Script.Coercion
import ScriptBridge.Text.Escaped

/-! The functions of pages and the language's own functions. -/
namespace ScriptBridge.Script

open Run (fail)

namespace Body

/-- What stands between the braces of a function. -/
def source : Body → String
  | .returnNothing => ""
  | .returnFirst => "return a;"
  | .returnArguments => "return Array.prototype.slice.call(arguments);"
  | .returnCount => "return arguments.length;"
  | .returnThis => "return this;"
  | .returnFresh => "return \x7b\x7d;"
  | .countHit => "this.hits += 1;"
  | .throwError message => "throw new Error('" ++ String.ofList (Text.escape message.toList) ++ "');"

/-- What a page's function does with its receiver and arguments. -/
def run (invoke : Caller) (b : Body) (this : Value) (args : List Value) : Run Value :=
  match b with
  | .returnNothing => return .undefined
  | .returnFirst => return args.headD .undefined
  | .returnArguments => Run.allocArray args
  | .returnCount => return .nat args.length
  | .returnThis => return this
  | .returnFresh => Run.allocPlain
  | .countHit => do
    let hits := Key.ofText "hits"
    Run.store invoke this hits (← Run.sum invoke (← Run.read this hits) (.nat 1))
    return .undefined
  | .throwError message => fail message

end Body

namespace Tool

/-- The text of a function of a handle table. -/
def source (t : Tool) (m : Memory) : String :=
  let value : Bootstrap.Slot → List Char
    | .tag => m.tag.toList
    | .scheme => m.scheme.toList
    | _ => []
  String.ofList (Text.fill value (match t with
    | .tag => Bootstrap.tagger
    | .register => Bootstrap.registrar
    | .convert => Bootstrap.converter))

end Tool

namespace Run

variable (invoke : Caller)

/-- The text of a function: its source, or its name where there is none. -/
def functionText (f : Address) : Run Content := do
  let nameless : Run Content := do
    let name ← text invoke (← read (.object f) (.ofText "name"))
    return (Content.text "function ").append (name.append (.text "() \x7b\n    [native code]\n\x7d"))
  match ((← get).object f).kind with
  | .function (.body b) => return .text ("function (a) \x7b " ++ b.source ++ " \x7d")
  | .function .blank => return .text "function () \x7b\x7d"
  | .function (.tool t m) => return .text (t.source m)
  | _ => nameless

/-- The word for the class of a value. -/
def className (h : Heap) : Value → String
  | .undefined => "Undefined"
  | .null => "Null"
  | .bool _ => "Boolean"
  | .number _ => "Number"
  | .string _ => "String"
  | .symbol _ => "Symbol"
  | .object a =>
    match (h.stored a).kind with
    | .array .. => "Array"
    | .function _ => "Function"
    | .map _ => if h.isProxy a then "Object" else "Map"
    | .error => if h.isProxy a then "Object" else "Error"
    | .arguments => if h.isProxy a then "Object" else "Arguments"
    | _ => "Object"

/-- Contents with commas between them. -/
def joined (separator : Content) : List Content → Content
  | [] => .text ""
  | [c] => c
  | c :: rest => c.append (separator.append (joined separator rest))

/-- The values under the indices of an object. -/
def indexed (v : Value) : Run (List Value) := do
  let n ← number invoke (← read v .length)
  (List.range ((n.length?).getD 0)).mapM fun i => read v (.ofNat i)

/-- The text of an array: those of its items with a mark between them, nothing for what is nullish. -/
def join (v : Value) (separator : Content) : Run Content := do
  let items ← (← indexed invoke v).mapM fun w =>
    if w.isNullish then return .text "" else text invoke w
  return joined separator items

/-- The changes that an object describes. -/
def descriptorOf (d : Value) : Run Descriptor := do
  match d with
  | .object a =>
    let field (name : String) : Run (Option Value) := do
      let h ← get
      let k := Key.ofText name
      return if h.has a k then some (h.get a k) else none
    let flag (name : String) : Run (Option Bool) := return (← field name).map Value.truth
    return ⟨← field "value", ← flag "writable", ← flag "enumerable", ← flag "configurable"⟩
  | _ => fail "not an object"

/-- Defines a property at the request of a script, which every refusal ends. -/
def defineProperty (a : Address) (k : Key) (d : Descriptor) : Run Unit := do
  match ← define a k d with
  | .declined => fail "proxy: defineProperty exception"
  | outcome => accept outcome

/-- Assigns the enumerable properties of one value to another. -/
def copyProperties (target source : Value) : Run Unit := do
  match source with
  | .object a =>
    for p in ((← get).stored a).properties do
      if p.2.enumerable then store invoke target p.1 (← read source p.1)
  | _ => return ()

/-- Whether a value has a property of its own. -/
def hasOwn (v : Value) (k : Key) : Run Bool := do
  match v with
  | .undefined | .null => fail "cannot convert to object"
  | .object a => return ((← get).own? a k).isSome
  | .string c =>
    match k with
    | .index n => return (c.unit? n).isSome
    | k => return decide (k = .length)
  | _ => return false

def close (v : Value) (c : Closure) : Run Value := do
  match v with
  | .object a => modify fun h => h.close a c
  | _ => pure ()
  return v

/-- Makes an error object. -/
def allocError (message : Value) : Run Value := do
  let names ← match message with
    | .undefined => pure []
    | v => pure [(Key.ofText "message", Property.hidden (.string (← text invoke v)))]
  alloc { kind := .error, proto := some Heap.errorProto, names }

def allocProxy (target : Value) (trap : Trap) : Run Value := do
  match target with
  | .object t => alloc { kind := .proxy t trap }
  | _ => fail "not an object"

/-- The entries of a map. -/
def entries (v : Value) : Run (Address × List (Value × Value)) := do
  match v with
  | .object a =>
    match ((← get).object a).kind with
    | .map entries => return (a, entries)
    | _ => fail "Map object expected"
  | _ => fail "Map object expected"

end Run

namespace Builtin

/-- What a function of the language does with its receiver and arguments. -/
def run (invoke : Caller) (b : Builtin) (this : Value) (args : List Value) : Run Value := do
  let first := args.headD .undefined
  let second := args.tail.headD .undefined
  match b with
  | .array =>
    match args with
    | [.number x] =>
      match x.length? with
      | some n => Run.allocElements n ∅
      | none => fail "invalid array length"
    | _ => Run.allocArray args
  | .isArray =>
    match first with
    | .object a => return .bool ((← get).isArray a)
    | _ => return .bool false
  | .object =>
    match first with
    | .undefined | .null => Run.allocPlain
    | .object a => return .object a
    | v => Run.alloc { proto := (← get).proto? v }
  | .defineProperty =>
    match first with
    | .object a => do
      let k ← Run.key invoke second
      Run.defineProperty a k (← Run.descriptorOf (args.tail.tail.headD .undefined))
      return first
    | _ => fail "not an object"
  | .freeze => Run.close first .frozen
  | .seal => Run.close first .sealed
  | .preventExtensions => Run.close first .inextensible
  | .create =>
    match first with
    | .object a => Run.alloc { proto := some a }
    | .null => Run.alloc {}
    | _ => fail "not a prototype"
  | .assign =>
    if first.isNullish then fail "cannot convert to object"
    else
      args.tail.forM fun source => Run.copyProperties invoke first source
      return first
  | .hasOwnProperty => do
    let k ← Run.key invoke first
    return .bool (← Run.hasOwn this k)
  | .objectText => return .text ("[object " ++ Run.className (← get) this ++ "]")
  | .objectValue => if this.isNullish then fail "cannot convert to object" else return this
  | .call => invoke this first args.tail
  | .apply =>
    if !(← get).isCallable this then fail "not a function"
    else if second.isNullish then invoke this first []
    else invoke this first (← Run.indexed invoke second)
  | .functionText =>
    match this with
    | .object f =>
      if (← get).isCallable this then return .string (← Run.functionText invoke f) else fail "not a function"
    | _ => fail "not a function"
  | .arrayText => do
    let f ← Run.read this (.ofText "join")
    if (← get).isCallable f then invoke f this []
    else return .text ("[object " ++ Run.className (← get) this ++ "]")
  | .join => do
    let separator ← match first with
      | .undefined => pure (.text ",")
      | v => Run.text invoke v
    return .string (← Run.join invoke this separator)
  | .valueText => return .string (← Run.primitiveText this)
  | .map | .proxy => fail "constructor requires 'new'"
  | .mapGet => do
    let (_, entries) ← Run.entries this
    return ((entries.find? fun e => e.1.same first).map Prod.snd).getD .undefined
  | .mapSet => do
    let (a, entries) ← Run.entries this
    let o := (← get).object a
    let entries := (first, second) :: entries.filter fun e => !e.1.same first
    modify fun h => h.setObject a { o with kind := .map entries }
    return this
  | .error => Run.allocError invoke first
  | .errorText => do
    let name ← Run.text invoke (← Run.read this (.ofText "name"))
    let message ← Run.text invoke (← Run.read this (.ofText "message"))
    return .string (if message.units.isEmpty then name else name.append ((Content.text ": ").append message))
  | .other _ => return .undefined

/-- What a function of the language makes, when it is asked for a new object. -/
def construct (invoke : Caller) (b : Builtin) (args : List Value) : Run Value := do
  match b with
  | .map => Run.alloc { kind := .map [], proto := some Heap.mapProto }
  | .proxy => Run.allocProxy (args.headD .undefined) .forward
  | .other _ => Run.allocPlain
  | b => b.run invoke .undefined args

end Builtin

/-- Makes an object with a function: the functions of pages work on a fresh object, which stands where they
give none themselves. -/
def Run.construct (invoke : Caller) (callee : Value) (args : List Value) : Run Value := do
  match (← get).codeOf? callee with
  | some (.builtin b) =>
    if (Code.builtin b).constructs then b.construct invoke args else fail "not a constructor"
  | some _ => do
    let proto := match ← Run.read callee (.ofText "prototype") with
      | .object p => p
      | _ => Heap.objectProto
    let this ← Run.alloc { proto := some proto }
    match ← invoke callee this args with
    | .object a => return .object a
    | _ => return this
  | none => fail "not a constructor"

end ScriptBridge.Script
