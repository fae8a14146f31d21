import ScriptBridge.Text.Substitution

/-! Text as it stands between the quotes of a string in a script. -/
namespace ScriptBridge.Text

/-- The escapes, in the order in which they are made. -/
def escapes : List (Char × Char) :=
  [('\\', '\\'), ('\n', 'n'), ('\t', 't'), ('\r', 'r'), ('\'', '\''), ('"', '"')]

/-- The text between the quotes: one character after the other is replaced in the whole text. -/
def escape (text : List Char) : List Char :=
  escapes.foldl (fun t e => replaceChar e.1 ['\\', e.2] t) text

end ScriptBridge.Text
