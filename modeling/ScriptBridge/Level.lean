import ScriptBridge.Text.Casing

/-! Levels of log events. -/
namespace ScriptBridge

inductive Level where
  | trace | debug | info | warn | error
  deriving DecidableEq, Repr, Inhabited

namespace Level

def all : List Level := [.trace, .debug, .info, .warn, .error]

/-- The level's name in configurations. -/
def name : Level → String
  | .trace => "Trace"
  | .debug => "Debug"
  | .info => "Info"
  | .warn => "Warn"
  | .error => "Error"

/-- The word that sets a log filter to the level. -/
def directive (l : Level) : String := Text.lowerAscii l.name

/-- The mark of the level on an event. -/
def mark (l : Level) : String := String.ofList (l.name.toList.map Char.toUpper)

def ofName? (s : String) : Option Level := all.find? fun l => l.name == s

/-- A level from its directive in any ASCII case; `warning` stands for `warn`. -/
def parse? (s : String) : Option Level :=
  let word := Text.lowerAscii s
  if word == "warning" then some .warn else all.find? fun l => l.directive == word

end Level
end ScriptBridge
