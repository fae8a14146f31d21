import ScriptBridge.Config.Files
import ScriptBridge.Config.Json
import ScriptBridge.Config.Toml

/-! Loading of configurations from files, and the search for one. -/
namespace ScriptBridge.Config

inductive Format where
  | toml | json
  deriving DecidableEq, Repr, Inhabited

def parse? (f : Format) (text : String) : Option Config :=
  match f with
  | .toml => ofToml? text
  | .json => ofJson? text

/-- Why a file gives no configuration: it cannot be read as text, or the text is not one. -/
inductive LoadError where
  | unreadable | malformed
  deriving DecidableEq, Repr, Inhabited

def load (files : Files) (at_ : Location) (f : Format) : Except LoadError Config :=
  match (files at_).bind String.fromUTF8? with
  | none => .error .unreadable
  | some text =>
    match parse? f text with
    | some c => .ok c
    | none => .error .malformed

/-- The document that a configuration is saved as. -/
def document (f : Format) (c : Config) : String :=
  match f with
  | .toml => c.tomlText
  | .json => c.jsonText

/-- Saving replaces what was in the place, if anything was. -/
def save (files : Files) (at_ : Location) (f : Format) (c : Config) : Files :=
  fun place => if place = at_ then some (document f c).toUTF8 else files place

/-- Where a configuration is looked for, in this order. -/
def searchOrder : List (Location × Format) :=
  [(.working "script_proxy.toml", .toml), (.working "script_proxy.json", .json), (.user "config.toml", .toml)]

/-- The first file of the search that gives a configuration; files that give none are passed over. -/
def find? (files : Files) : List (Location × Format) → Option (Location × Config)
  | [] => none
  | (place, f) :: rest =>
    match load files place f with
    | .ok c => some (place, c)
    | .error _ => find? files rest

def loadOrDefault (files : Files) : Config := ((find? files searchOrder).map Prod.snd).getD {}

end ScriptBridge.Config
