import ScriptBridge.Config
import ScriptBridge.Handle
import ScriptBridge.Text.Substitution

/-! The scripts that bring the script side of a bridge into an engine and ask about it. The installing
script makes a handle table with the root object in its first slot, and a converter that replaces objects
by the tokens of their slots. -/
namespace ScriptBridge.Bootstrap

open Text (Piece fill replaceSlots)

/-- The places of the installing script that a configuration fills. -/
inductive Slot where
  | root | tag | scheme | table | converter
  deriving DecidableEq, Repr

namespace Slot

/-- The word that stands for a slot in the text of the template. -/
def placeholder : Slot → List Char
  | root => "__ROOT__".toList
  | tag => "__TAG__".toList
  | scheme => "__PREFIX__".toList
  | table => "__TABLE__".toList
  | converter => "__CONVERTER__".toList

/-- The order in which the slots are filled. -/
def order : List Slot := [root, tag, scheme, table, converter]

/-- The root expression is put in parentheses. -/
def value (c : Config) : Slot → List Char
  | root => '(' :: c.rootExpression.toList ++ [')']
  | tag => c.tagProperty.toList
  | scheme => Handle.scheme
  | table => c.tableName.toList
  | converter => c.converterName.toList

end Slot

def text (s : String) : Piece Slot := .literal s.toList

/-- The function that tags an object with its handle. -/
def tagger : List (Piece Slot) := [
  text (
      "function tag(value, handle) \x7b\n" ++
      "    try \x7b\n" ++
      "      Object.defineProperty(value, '"),
  .slot .tag,
  text (
      "', \x7b\n" ++
      "        value: handle,\n" ++
      "        enumerable: false,\n" ++
      "        configurable: true,\n" ++
      "        writable: true\n" ++
      "      \x7d);\n" ++
      "    \x7d catch (e) \x7b\n" ++
      "      return false;\n" ++
      "    \x7d\n" ++
      "    return hasOwn.call(value, '"),
  .slot .tag,
  text "') && value['",
  .slot .tag,
  text (
      "'] === handle;\n" ++
      "  \x7d")]

/-- The function that gives an object its slot. -/
def registrar : List (Piece Slot) := [
  text (
      "function register(value) \x7b\n" ++
      "    if (hasOwn.call(value, '"),
  .slot .tag,
  text (
      "')) \x7b\n" ++
      "      var tagged = value['"),
  .slot .tag,
  text (
      "'];\n" ++
      "      if (table[tagged] === value) \x7b\n" ++
      "        return tagged;\n" ++
      "      \x7d\n" ++
      "    \x7d\n" ++
      "    var known = untagged.get(value);\n" ++
      "    if (known !== undefined && table[known] === value) \x7b\n" ++
      "      return known;\n" ++
      "    \x7d\n" ++
      "    var handle = table.length;\n" ++
      "    table[handle] = value;\n" ++
      "    if (!tag(value, handle)) \x7b\n" ++
      "      untagged.set(value, handle);\n" ++
      "    \x7d\n" ++
      "    return handle;\n" ++
      "  \x7d")]

/-- The function that converts a value. -/
def converter : List (Piece Slot) := [
  text (
      "function convert(param) \x7b\n" ++
      "    if (param === null || param === undefined) \x7b\n" ++
      "      return null;\n" ++
      "    \x7d\n" ++
      "    if (Array.isArray(param)) \x7b\n" ++
      "      var converted = new Array(param.length);\n" ++
      "      for (var i = 0; i < param.length; i++) \x7b\n" ++
      "        converted[i] = convert(param[i]);\n" ++
      "      \x7d\n" ++
      "      return converted;\n" ++
      "    \x7d\n" ++
      "    var type = typeof param;\n" ++
      "    if (type === 'object' || type === 'function') \x7b\n" ++
      "      return '"),
  .slot .scheme,
  text (
      "' + register(param);\n" ++
      "    \x7d\n" ++
      "    return param;\n" ++
      "  \x7d")]

/-- The installing script. -/
def template : List (Piece Slot) :=
  [ text (
      "(function (global) \x7b\n" ++
      "  var table = ["),
    .slot .root,
    text (
      "];\n" ++
      "  var hasOwn = Object.prototype.hasOwnProperty;\n" ++
      "\n" ++
      "  // objects that refuse the tag, keyed by identity\n" ++
      "  var untagged = new Map();\n" ++
      "\n" ++
      "  ")]
    ++ tagger ++ [text "\n\n  "] ++ registrar ++ [text "\n\n  "] ++ converter ++
  [ text (
      "\n" ++
      "\n" ++
      "  if (table[0] !== null && table[0] !== undefined && !tag(table[0], 0)) \x7b\n" ++
      "    untagged.set(table[0], 0);\n" ++
      "  \x7d\n" ++
      "  global['"),
    .slot .table,
    text (
      "'] = table;\n" ++
      "  global['"),
    .slot .converter,
    text (
      "'] = convert;\n" ++
      "\x7d)(globalThis);")]

/-- The template with the slots by their placeholders. -/
def templateText : List Char := fill Slot.placeholder template

/-- The script that installs a new table and converter. -/
def install (c : Config) : String :=
  String.ofList (replaceSlots Slot.placeholder (Slot.value c) Slot.order templateText)

def globalNamed (name : String) : String := "globalThis['" ++ name ++ "']"

/-- The script that installs where there is no table yet. -/
def guarded (c : Config) : String :=
  "if (!Array.isArray(" ++ globalNamed c.tableName ++ ")) \x7b\n" ++ install c ++ "\n\x7d"

/-- The script that asks for a table and a converter. -/
def presence (c : Config) : String :=
  "return Array.isArray(" ++ globalNamed c.tableName ++ ") && typeof " ++ globalNamed c.converterName
    ++ " === 'function';"

/-- The script that asks for the length of the table. -/
def size (c : Config) : String := "return " ++ c.tableName ++ ".length;"

end ScriptBridge.Bootstrap
