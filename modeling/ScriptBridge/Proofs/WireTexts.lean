import ScriptBridge.Proofs.JsonTexts
import ScriptBridge.Proofs.Layouts
import ScriptBridge.Wire.Json

/-! Wire values through JSON. The first character of a text tells its kind, so that no value comes back as one of
another kind; what JSON has no number for comes back as `null`. -/
namespace ScriptBridge

open Double (Decimal)

namespace Double

theorem Layout.written_fraction (l : Layout) (d : Nat) (e : Int) : (l.written d e).fraction ≠ some [] := by
  have hne := Text.decimal_ne_nil d
  unfold Layout.written
  dsimp only
  split
  · split
    · simp [hne]
    · split
      · split <;> simp
      · intro h
        have hlen := congrArg List.length (Option.some.inj h)
        rw [List.length_drop, List.length_nil] at hlen
        omega
  · intro h
    dsimp only at h
    split at h
    · cases h
    · have hlen := congrArg List.length (Option.some.inj h)
      rw [List.length_drop, List.length_nil] at hlen
      omega

theorem written_fraction (l : Layout) (x : Double) : (x.written l).fraction ≠ some [] := by
  unfold written
  split
  · dsimp only
    split <;> simp
  · exact l.written_fraction _ _

theorem isLiteral_written (l : Layout) {x : Double} (hx : x.isFinite = true) : Json.IsLiteral (x.written l) :=
  ⟨written_wellFormed l x, Script.Numeral.leading_number l hx, written_fraction l x⟩

/-- What JSON has no number for. -/
theorem text_json_of_not_finite {x : Double} (hx : x.isFinite = false) : x.text .json = ['n', 'u', 'l', 'l'] := by
  have hge : infinite ≤ x.magnitude := Nat.le_of_not_lt (of_decide_eq_false hx)
  unfold text
  split
  · rfl
  · rename_i hnan
    have hinf : x.isInfinite = true := by
      simp only [isNaN, decide_eq_true_eq, not_lt] at hnan
      exact decide_eq_true (Nat.le_antisymm hnan hge)
    rw [if_pos hinf]
    split <;> rfl

/-- The number literal that a finite number is written as. -/
def literal (x : Double) : Json.Number := .ofDecimal x.negative (x.written .json)

/-- A number comes back from its literal. -/
def ReadsBack (x : Double) : Prop := x.literal.toDouble? = some x

instance (x : Double) : Decidable x.ReadsBack := inferInstanceAs (Decidable (_ = _))

end Double

namespace Wire

mutual
/-- The document that a value is written as. -/
def toJson : Wire → Json
  | .null => .null
  | .bool b => .bool b
  | .number x => if x.isFinite then .number x.literal else .null
  | .text s => .text (some s)
  | .array items => .array (toJsonItems items)

def toJsonItems : List Wire → List Json
  | [] => []
  | w :: rest => w.toJson :: toJsonItems rest
end

mutual
/-- A value with `null` in place of all numbers that are not finite. -/
def finite : Wire → Wire
  | .number x => if x.isFinite then .number x else .null
  | .array items => .array (finiteItems items)
  | w => w

def finiteItems : List Wire → List Wire
  | [] => []
  | w :: rest => w.finite :: finiteItems rest
end

mutual
/-- All finite numbers in a value come back from their literals. -/
def ReadsBack : Wire → Prop
  | .number x => x.isFinite = true → x.ReadsBack
  | .array items => ItemsReadBack items
  | _ => True

def ItemsReadBack : List Wire → Prop
  | [] => True
  | w :: rest => w.ReadsBack ∧ ItemsReadBack rest
end

mutual
/-- The text of a value is a text of its document. -/
theorem written_json : (w : Wire) → Json.Written w.toJson w.json
  | .null => .null
  | .bool true => .truth
  | .bool false => .falsehood
  | .number x => by
    rcases hx : x.isFinite with _ | _
    · rw [toJson, hx, json, Double.text_json_of_not_finite hx]
      exact .null
    · rw [toJson, hx, json, Double.text_eq_written rfl hx]
      exact .number (Double.isLiteral_written _ hx) _
  | .text s => .text s
  | .array [] => .emptyArray
  | .array (w :: ws) => .array (writtenItems_json (w :: ws) nofun)

theorem writtenItems_json : (ws : List Wire) → ws ≠ [] →
    Json.WrittenItems (toJsonItems ws) (Json.separated [','] (jsonItems ws))
  | [w], _ => by
    have hlast := Json.WrittenItems.last Json.blank_nil (written_json w) Json.blank_nil
    rwa [List.nil_append, List.append_nil] at hlast
  | w :: v :: more, _ => by
    have hmore := writtenItems_json (v :: more) nofun
    have hnext := Json.WrittenItems.next Json.blank_nil (written_json w) Json.blank_nil hmore
    simpa [toJsonItems, jsonItems, Json.separated] using hnext
end

/-- The text of a value is read as its document, whatever its numbers are. -/
theorem parse?_json (w : Wire) : Json.parse? w.json = some w.toJson := Json.parse?_written w.written_json

mutual
theorem depth_toJson : (w : Wire) → w.toJson.depth = w.nesting
  | .null | .bool _ | .text _ => rfl
  | .number x => by
    rw [toJson]
    split <;> rfl
  | .array items => by rw [toJson, Json.depth, nesting, depthItems_toJson items, Nat.add_comm]

theorem depthItems_toJson : (ws : List Wire) → Json.depthItems (toJsonItems ws) = itemNesting ws
  | [] => rfl
  | w :: rest => by rw [toJsonItems, Json.depthItems, itemNesting, depth_toJson w, depthItems_toJson rest]
end

mutual
/-- The document of a value is the document of no other kind of value. -/
theorem ofJson?_toJson : (w : Wire) → w.ReadsBack → ofJson? w.toJson = some w.finite
  | .null, _ | .bool _, _ | .text _, _ => rfl
  | .number x, h => by
    rw [toJson, finite]
    split
    · rename_i hx
      rw [ofJson?, h hx]
      rfl
    · rfl
  | .array items, h => by rw [toJson, ofJson?, ofJsonItems?_toJson items h]; rfl

theorem ofJsonItems?_toJson : (ws : List Wire) → ItemsReadBack ws → ofJsonItems? (toJsonItems ws) = some (finiteItems ws)
  | [], _ => rfl
  | w :: rest, h => by rw [toJsonItems, ofJsonItems?, ofJson?_toJson w h.1, ofJsonItems?_toJson rest h.2]; rfl
end

/-- A value comes back from its text, with `null` for what is not finite, unless its arrays are nested too deep. -/
theorem parseJson?_json (w : Wire) (h : w.ReadsBack) :
    parseJson? w.json = if w.nesting ≤ maxDepth then some w.finite else none := by
  rw [parseJson?, parse?_json]
  simp only [depth_toJson, ofJson?_toJson w h]

/-- The numbers are `-0.0`, `3.0`, `0.1`, `1e300`, one that is none, and both infinities. -/
theorem parseJson?_json_mixed :
    parseJson? (json (.array [.array [], .number ⟨0x8000000000000000⟩, .number ⟨0x4008000000000000⟩,
        .number ⟨0x3FB999999999999A⟩, .number ⟨0x7E37E43C8800759C⟩, .number .nan, .number .infinity,
        .number .negInfinity, .text "nsiId=1", .text "null", .text "\"\\/\n\x00\x1b\x7fé😀",
        .array [.bool false, .array [.null, .text ""]]])) =
      some (.array [.array [], .number ⟨0x8000000000000000⟩, .number ⟨0x4008000000000000⟩,
        .number ⟨0x3FB999999999999A⟩, .number ⟨0x7E37E43C8800759C⟩, .null, .null, .null, .text "nsiId=1", .text "null",
        .text "\"\\/\n\x00\x1b\x7fé😀", .array [.bool false, .array [.null, .text ""]]]) :=
  parseJson?_json _ ⟨trivial, fun _ => by decide +kernel, fun _ => by decide +kernel, fun _ => by decide +kernel,
    fun _ => by decide +kernel, nofun, nofun, nofun, trivial, trivial, trivial, ⟨trivial, ⟨trivial, trivial, trivial⟩,
    trivial⟩, trivial⟩

end Wire
end ScriptBridge
