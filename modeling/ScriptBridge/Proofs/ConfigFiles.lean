import ScriptBridge.Config.Load
import ScriptBridge.Proofs.JsonTexts
import ScriptBridge.Proofs.TomlTexts

/-! Saved configurations. A limit that is not set is missing in one format and `null` in the other; in both the file is
read as the configuration that was saved, whatever its names are. -/
namespace ScriptBridge

theorem TokenPolicy.ofName?_name (p : TokenPolicy) : ofName? p.name = some p := by cases p <;> decide

theorem VoidCalls.ofName?_name (v : VoidCalls) : ofName? v.name = some v := by cases v <;> decide

theorem Level.ofName?_name (l : Level) : ofName? l.name = some l := by cases l <;> decide

namespace Setting

variable {d : Dialect}

/-- The settings of a configuration; those of its limits and of its log are the formats' own. -/
def ofConfig (c : Config) (limits logging : Setting) : Setting :=
  .group [
    (some "table_name", .text c.tableName),
    (some "converter_name", .text c.converterName),
    (some "tag_property", .text c.tagProperty),
    (some "root_expression", .text c.rootExpression),
    (some "token_policy", .text c.tokenPolicy.name),
    (some "void_calls", .text c.voidCalls.name),
    (some "engine", limits),
    (some "logging", logging)]

def ofLogging (l : Logging) : Setting :=
  .group [(some "level", .text l.level.name), (some "log_to_console", .flag l.toConsole)]

theorem logging?_ofLogging (l : Logging) : logging? d (ofLogging l) = some l := by
  have hlevel := Level.ofName?_name l.level
  simp [logging?, ofLogging, values?, fieldValues?, orDefault, choice?, flag?, hlevel]

theorem config?_ofConfig {c : Config} {limits logging : Setting} (hlimits : limits? d limits = some c.limits)
    (hlogging : logging? d logging = some c.logging) : config? d (ofConfig c limits logging) = some c := by
  have hpolicy := TokenPolicy.ofName?_name c.tokenPolicy
  have hcalls := VoidCalls.ofName?_name c.voidCalls
  simp [config?, ofConfig, values?, fieldValues?, orDefault, choice?, text?, hpolicy, hcalls, hlimits, hlogging]

end Setting

namespace Config

/-! JSON. -/

private theorem ofJson_limitJson (n : Option UInt64) :
    Setting.ofJson (limitJson n) = n.elim .null .count := by
  cases n with
  | none => rfl
  | some n =>
    have hn : (Json.Number.ofNat n.toNat).toNat? = some n.toNat := by
      have hlt := n.toNat_lt
      rw [Json.Number.toNat?, Json.Number.ofNat, Text.numeral_decimal]
      simpa using hlt
    rw [limitJson, Setting.ofJson, hn]
    simp

private theorem limits?_json (l : Limits) : Setting.limits? Setting.jsonDialect
    (.group [(some "memory_limit_bytes", l.memory.elim .null .count),
      (some "max_stack_size_bytes", l.stack.elim .null .count)]) = some l := by
  obtain ⟨memory, stack⟩ := l
  cases memory <;> cases stack <;>
    simp [Setting.limits?, Setting.values?, Setting.fieldValues?, Setting.orDefault, Setting.limit?]

theorem complete_toJson (c : Config) : c.toJson.Complete := by
  have hlimit (n : Option UInt64) : (limitJson n).Complete := by
    cases n with
    | none => trivial
    | some n => exact Json.Number.isWritten_ofNat n.toNat
  simp [toJson, Json.Complete, Json.FieldsComplete, hlimit]

theorem ofJson?_jsonText (c : Config) : ofJson? c.jsonText = some c := by
  have hparse := Json.parse?_written (Json.written_pretty 0 c.toJson c.complete_toJson)
  have hsetting : Setting.ofJson c.toJson = Setting.ofConfig c
      (.group [(some "memory_limit_bytes", c.limits.memory.elim .null .count),
        (some "max_stack_size_bytes", c.limits.stack.elim .null .count)]) (.ofLogging c.logging) := by
    simp only [toJson, Setting.ofJson, Setting.ofJsonFields, ofJson_limitJson]
    rfl
  rw [ofJson?, jsonText, String.toList_ofList, hparse]
  simp only [hsetting]
  exact Setting.config?_ofConfig (limits?_json c.limits) (Setting.logging?_ofLogging c.logging)

/-! TOML. -/

/-- A field of text. -/
def textEntry (key value : String) : Toml.Entry := ⟨key, Toml.writeString value.toList, .text value⟩

def limitEntries (key : String) : Option UInt64 → List Toml.Entry
  | none => []
  | some n => [⟨key, Text.decimal n.toNat, .integer n.toNat⟩]

def entries (c : Config) : List Toml.Entry :=
  [textEntry "table_name" c.tableName, textEntry "converter_name" c.converterName,
    textEntry "tag_property" c.tagProperty, textEntry "root_expression" c.rootExpression,
    textEntry "token_policy" c.tokenPolicy.name, textEntry "void_calls" c.voidCalls.name]

def sections (c : Config) : List Toml.Section :=
  [⟨"engine", limitEntries "memory_limit_bytes" c.limits.memory ++ limitEntries "max_stack_size_bytes" c.limits.stack⟩,
    ⟨"logging", [textEntry "level" c.logging.level.name,
      ⟨"log_to_console", (if c.logging.toConsole then "true" else "false").toList, .bool c.logging.toConsole⟩]⟩]

private theorem toList_tomlText (c : Config) : c.tomlText.toList =
    (c.entries.map Toml.Line.field ++ c.sections.flatMap Toml.Section.lines).flatMap Toml.Line.text := by
  have htext (key value : String) : (Toml.Line.field (textEntry key value)).text = textLine key value := rfl
  have hlimit (key : String) (n : Option UInt64) :
      ((limitEntries key n).map Toml.Line.field).flatMap Toml.Line.text = limitLine key n := by
    cases n <;> simp [limitEntries, limitLine, line, Toml.Line.text]
  have hengine : (Toml.Line.header "engine").text = "\n[engine]\n".toList := by decide
  have hlogging : (Toml.Line.header "logging").text = "\n[logging]\n".toList := by decide
  rw [tomlText, String.toList_ofList]
  simp only [entries, sections, Toml.Section.lines, List.map_cons, List.map_append, List.flatMap_cons,
    List.flatMap_append, List.flatMap_nil, List.map_nil, hlimit, htext, hengine, hlogging, List.append_assoc,
    List.append_nil]
  rfl

private theorem readable_flag (b : Bool) : Toml.Readable (if b then "true" else "false").toList (.bool b) := by
  cases b
  · exact Toml.readable_false
  · exact Toml.readable_true

private theorem wellFormed_lines (c : Config) :
    ∀ l ∈ c.entries.map Toml.Line.field ++ c.sections.flatMap Toml.Section.lines, l.WellFormed := by
  have htext (key value : String) (hkey : Toml.IsBareKey key) : (Toml.Line.field (textEntry key value)).WellFormed :=
    ⟨hkey, Toml.readable_string value⟩
  have hlimit (key : String) (hkey : Toml.IsBareKey key) (n : Option UInt64) :
      ∀ l ∈ (limitEntries key n).map Toml.Line.field, l.WellFormed := by
    cases n with
    | none => exact List.forall_mem_nil _
    | some n =>
      intro l hl
      obtain rfl := List.mem_singleton.1 hl
      exact ⟨hkey, Toml.readable_decimal n.toNat_lt⟩
  have hengine : Toml.IsBareKey "engine" := by decide
  have hlogging : Toml.IsBareKey "logging" := by decide
  have hconsole : Toml.IsBareKey "log_to_console" := by decide
  simp only [entries, sections, Toml.Section.lines, List.map_cons, List.map_append, List.flatMap_cons, List.flatMap_nil,
    List.map_nil, List.forall_mem_append, List.forall_mem_cons]
  refine ⟨⟨htext _ _ (by decide), htext _ _ (by decide), htext _ _ (by decide), htext _ _ (by decide),
    htext _ _ (by decide), htext _ _ (by decide), List.forall_mem_nil _⟩,
    ⟨hengine, hlimit _ (by decide) _, hlimit _ (by decide) _⟩,
    ⟨hlogging, htext _ _ (by decide), ⟨hconsole, readable_flag _⟩, List.forall_mem_nil _⟩, List.forall_mem_nil _⟩

private theorem limits?_toml (l : Limits) : Setting.limits? Setting.tomlDialect
    (.group (Setting.ofTomlFields ((limitEntries "memory_limit_bytes" l.memory ++
      limitEntries "max_stack_size_bytes" l.stack).map Toml.Entry.pair))) = some l := by
  have hcount (n : UInt64) : Setting.ofToml (.integer n.toNat) = .count n := by
    have hlt := n.toNat_lt
    rw [Setting.ofToml, if_pos ⟨by omega, by exact_mod_cast hlt⟩]
    simp
  obtain ⟨memory, stack⟩ := l
  cases memory <;> cases stack <;>
    simp [Setting.limits?, Setting.values?, Setting.fieldValues?, Setting.orDefault, Setting.limit?, limitEntries,
      Toml.Entry.pair, Setting.ofTomlFields, hcount]

theorem ofToml?_tomlText (c : Config) : ofToml? c.tomlText = some c := by
  have hkeys : (c.entries.map Toml.Entry.key ++ c.sections.map Toml.Section.key).Nodup := by
    simp [entries, sections, textEntry]
  have hentries : ∀ t ∈ c.sections, (t.entries.map Toml.Entry.key).Nodup := by
    simp only [sections, List.mem_cons, List.not_mem_nil, or_false, forall_eq_or_imp, forall_eq]
    refine ⟨?_, by simp [textEntry]⟩
    rcases c.limits.memory with _ | _ <;> rcases c.limits.stack with _ | _ <;> simp [limitEntries]
  have hparse := Toml.parse?_document c.wellFormed_lines hkeys hentries
  have hsetting : Setting.group (Setting.ofTomlFields
      (c.entries.map Toml.Entry.pair ++ c.sections.map Toml.Section.pair)) =
        Setting.ofConfig c (.group (Setting.ofTomlFields ((limitEntries "memory_limit_bytes" c.limits.memory ++
          limitEntries "max_stack_size_bytes" c.limits.stack).map Toml.Entry.pair))) (.ofLogging c.logging) := rfl
  rw [ofToml?, toList_tomlText, hparse]
  simp only [hsetting]
  exact Setting.config?_ofConfig (limits?_toml c.limits) (Setting.logging?_ofLogging c.logging)

theorem parse?_document (f : Format) (c : Config) : parse? f (document f c) = some c := by
  cases f
  · exact ofToml?_tomlText c
  · exact ofJson?_jsonText c

/-- A configuration is loaded as it was saved, in either format and over whatever files there were. -/
theorem load_save (files : Files) (place : Location) (f : Format) (c : Config) :
    load (save files place f c) place f = .ok c := by
  have hbytes : (save files place f c) place = some (document f c).toUTF8 := if_pos rfl
  have htext : String.fromUTF8? (document f c).toUTF8 = some (document f c) := by
    simp [String.fromUTF8?, String.toUTF8, String.fromUTF8, (document f c).isValidUTF8]
  rw [load, hbytes, Option.bind_some, htext]
  simp only [parse?_document]

end Config
end ScriptBridge
