import ScriptBridge.Script.Heap

/-! The objects of the language itself, as a new context has them. -/
namespace ScriptBridge.Script

/-- A function of the language, with its name and the number of its parameters. -/
structure Entry where
  name : String
  arity : Nat
  builtin : Builtin
  deriving Repr, Inhabited

namespace Realm

/-- Functions of which only the place is kept. -/
def others (names : List String) : List Entry := names.map fun name => ⟨name, 1, .other false⟩

/-- Constructors, with the objects that what they make inherits from. -/
def constructors : List (Entry × Address) := [
  (⟨"Object", 1, .object⟩, Heap.objectProto),
  (⟨"Function", 1, .other true⟩, Heap.functionProto),
  (⟨"Array", 1, .array⟩, Heap.arrayProto),
  (⟨"Map", 0, .map⟩, Heap.mapProto),
  (⟨"Error", 1, .error⟩, Heap.errorProto),
  (⟨"String", 1, .other true⟩, Heap.stringProto),
  (⟨"Number", 1, .other true⟩, Heap.numberProto),
  (⟨"Boolean", 1, .other true⟩, Heap.booleanProto),
  (⟨"Symbol", 0, .other true⟩, Heap.symbolProto)]

/-- The functions of the constructors themselves. -/
def statics : List (String × List Entry) := [
  ("Object", [⟨"defineProperty", 3, .defineProperty⟩, ⟨"freeze", 1, .freeze⟩, ⟨"seal", 1, .seal⟩,
    ⟨"preventExtensions", 1, .preventExtensions⟩, ⟨"create", 2, .create⟩, ⟨"assign", 2, .assign⟩]
    ++ others ["keys", "values", "entries", "is", "getPrototypeOf", "setPrototypeOf", "isExtensible", "isFrozen",
      "isSealed", "getOwnPropertyNames", "getOwnPropertyDescriptor", "defineProperties", "fromEntries"]),
  ("Array", ⟨"isArray", 1, .isArray⟩ :: others ["from", "of"]),
  ("Symbol", others ["for", "keyFor"])]

/-- The functions of the objects that values inherit from. -/
def methods : List (Address × List Entry) := [
  (Heap.objectProto, [⟨"hasOwnProperty", 1, .hasOwnProperty⟩, ⟨"toString", 0, .objectText⟩,
    ⟨"toLocaleString", 0, .objectText⟩, ⟨"valueOf", 0, .objectValue⟩]
    ++ others ["isPrototypeOf", "propertyIsEnumerable"]),
  (Heap.functionProto, [⟨"call", 1, .call⟩, ⟨"apply", 2, .apply⟩, ⟨"toString", 0, .functionText⟩]
    ++ others ["bind"]),
  (Heap.arrayProto, [⟨"toString", 0, .arrayText⟩, ⟨"join", 1, .join⟩]
    ++ others ["concat", "entries", "every", "fill", "filter", "find", "findIndex", "flat", "flatMap", "forEach",
      "includes", "indexOf", "keys", "lastIndexOf", "map", "pop", "push", "reduce", "reduceRight", "reverse",
      "shift", "slice", "some", "sort", "splice", "unshift", "values"]),
  (Heap.mapProto, [⟨"get", 1, .mapGet⟩, ⟨"set", 2, .mapSet⟩]
    ++ others ["clear", "delete", "entries", "forEach", "has", "keys", "values"]),
  (Heap.errorProto, [⟨"toString", 0, .errorText⟩]),
  (Heap.stringProto, [⟨"toString", 0, .valueText⟩, ⟨"valueOf", 0, .objectValue⟩]
    ++ others ["charAt", "charCodeAt", "concat", "endsWith", "includes", "indexOf", "lastIndexOf", "match",
      "repeat", "replace", "slice", "split", "startsWith", "substr", "substring", "toLowerCase", "toUpperCase",
      "trim"]),
  (Heap.numberProto, [⟨"toString", 1, .valueText⟩, ⟨"valueOf", 0, .objectValue⟩]
    ++ others ["toExponential", "toFixed", "toPrecision"]),
  (Heap.booleanProto, [⟨"toString", 0, .valueText⟩, ⟨"valueOf", 0, .objectValue⟩]),
  (Heap.symbolProto, [⟨"valueOf", 0, .objectValue⟩])]

/-- Functions under global names. -/
def functions : List Entry :=
  ⟨"Proxy", 2, .proxy⟩
    :: (["EvalError", "RangeError", "ReferenceError", "SyntaxError", "TypeError", "URIError", "InternalError",
      "AggregateError", "BigInt", "Date", "RegExp", "Promise", "Set", "WeakMap", "WeakSet", "ArrayBuffer",
      "SharedArrayBuffer", "DataView", "Int8Array", "Uint8Array", "Uint8ClampedArray", "Int16Array",
      "Uint16Array", "Int32Array", "Uint32Array", "BigInt64Array", "BigUint64Array", "Float32Array",
      "Float64Array"].map fun name => ⟨name, 1, .other true⟩)
    ++ others ["parseInt", "parseFloat", "isNaN", "isFinite", "decodeURI", "decodeURIComponent", "encodeURI",
      "encodeURIComponent", "escape", "unescape", "eval"]

/-- Plain objects under global names. -/
def namespaces : List String := ["Math", "JSON", "Reflect", "Atomics"]

def addProperty (h : Heap) (owner : Address) (name : String) (p : Property) : Heap :=
  h.setObject owner ((h.object owner).put (.ofText name) p)

def addValue (h : Heap) (owner : Address) (name : String) (v : Value) : Heap :=
  addProperty h owner name (.hidden v)

/-- Adds a function, under its name. -/
def addEntry (owner : Address) (h : Heap) (e : Entry) : Heap :=
  let (h, f) := h.alloc {
    kind := .function (.builtin e.builtin)
    proto := some Heap.functionProto
    names := [(.length, ⟨.nat e.arity, false, false, true⟩), (.ofText "name", ⟨.text e.name, false, false, true⟩)] }
  addValue h owner e.name (.object f)

def addConstructor (h : Heap) (e : Entry × Address) : Heap :=
  let f := h.objects.size
  let h := addEntry Heap.global h e.1
  let h := addProperty h f "prototype" ⟨.object e.2, false, false, false⟩
  addValue h e.2 "constructor" (.object f)

def addStatics (h : Heap) (owner : String × List Entry) : Heap :=
  match h.get Heap.global (.ofText owner.1) with
  | .object a => owner.2.foldl (addEntry a) h
  | _ => h

def addMethods (h : Heap) (owner : Address × List Entry) : Heap := owner.2.foldl (addEntry owner.1) h

def addNamespace (h : Heap) (name : String) : Heap :=
  let (h, a) := h.alloc { proto := some Heap.objectProto }
  addValue h Heap.global name (.object a)

/-- The objects with known places, without their functions. -/
def base : Heap :=
  let heir : Object := { proto := some Heap.objectProto }
  let fixed (v : Value) : Property := ⟨v, false, false, false⟩
  ⟨#[
    { heir with
      names := [
        (.ofText "undefined", fixed .undefined), (.ofText "NaN", fixed (.number (.float Double.nan))),
        (.ofText "Infinity", fixed (.number (.float Double.infinity))),
        (.ofText "globalThis", .hidden (.object Heap.global))] },
    {},
    { heir with
      kind := .function (.builtin (.other false))
      names := [(.length, ⟨.nat 0, false, false, true⟩), (.ofText "name", ⟨.text "", false, false, true⟩)] },
    { heir with kind := .array 0 true },
    heir,
    { heir with names := [(.ofText "name", .hidden (.text "Error")), (.ofText "message", .hidden (.text ""))] },
    heir, heir, heir, heir]⟩

def symbols : List String := ["iterator", "asyncIterator", "hasInstance", "species", "toPrimitive", "toStringTag"]

def addSymbols (h : Heap) : Heap :=
  match h.get Heap.global (.ofText "Symbol") with
  | .object a =>
    symbols.foldl (fun h name => addProperty h a name ⟨.symbol ("Symbol." ++ name), false, false, false⟩) h
  | _ => h

end Realm

/-- The heap of a new context. -/
def Heap.initial : Heap :=
  let h := Realm.constructors.foldl Realm.addConstructor Realm.base
  let h := Realm.statics.foldl Realm.addStatics h
  let h := Realm.methods.foldl Realm.addMethods h
  let h := Realm.functions.foldl (Realm.addEntry Heap.global) h
  let h := Realm.namespaces.foldl Realm.addNamespace h
  Realm.addSymbols h

end ScriptBridge.Script
