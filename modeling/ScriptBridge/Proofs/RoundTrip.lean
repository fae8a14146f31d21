import ScriptBridge.Proofs.Integers
import ScriptBridge.Proofs.TokenPolicies

/-! Native values that go out as wire values and come back for a shape. A value comes back when it fits the
shape: the wire form forgets kinds of numbers, and the shape has to restore what was forgotten. -/
namespace ScriptBridge

/-- A token is read as the handle that it was written for. -/
theorem Handle.ofToken?_token (h : Handle) : ofToken? h.token = some h := by
  have hdigits : (Text.decimal h.index).all Char.isDigit = true :=
    List.all_eq_true.2 fun _ => Text.isDigit_of_mem_decimal
  have hempty : (Text.decimal h.index).isEmpty = false := by
    rw [List.isEmpty_eq_false_iff]
    exact Text.decimal_ne_nil _
  have hindex : ofIndex? h.index = some h := by
    rw [ofIndex?, if_pos (show h.index < 2 ^ 32 from h.raw.toNat_lt), index, UInt32.ofNat_toNat]
  have hscheme : scheme.isPrefixOf (scheme ++ Text.decimal h.index) = true :=
    List.isPrefixOf_iff_prefix.2 (List.prefix_append _ _)
  simp only [ofToken?, token, String.toList_ofList, numeralText, List.drop_left, hscheme, hempty, hdigits,
    Text.numeral_decimal]
  exact hindex

namespace Native

mutual
/-- Whether a value has, at any depth, neither an integer nor a reference nor a value without a script form. -/
def isPlain : Native → Bool
  | .int _ | .long _ | .ref _ | .foreign _ => false
  | .array items => arePlain items
  | _ => true

def arePlain : List Native → Bool
  | [] => true
  | v :: rest => v.isPlain && arePlain rest
end

mutual
/-- Whether each number in a value equals itself. -/
def noNaN : Native → Bool
  | .double x => !x.isNaN
  | .array items => noNaNs items
  | _ => true

def noNaNs : List Native → Bool
  | [] => true
  | v :: rest => v.noNaN && noNaNs rest
end

mutual
/-- What passes through without a shape is the value itself exactly for plain values. -/
theorem same_passThrough : (v : Native) → v.noNaN = true → v.toWire.passThrough.same v = v.isPlain
  | .null, _ | .int _, _ | .long _, _ | .ref _, _ | .foreign _, _ => rfl
  | .bool b, _ => beq_self_eq_true b
  | .text t, _ => beq_self_eq_true t
  | .double x, h => by
    have hnan : x.isNaN = false := by simpa [noNaN] using h
    simp [toWire, Wire.passThrough, same, isPlain, Double.same, hnan]
  | .array items, h => sameItems_passThrough items h

theorem sameItems_passThrough : (vs : List Native) → noNaNs vs = true →
    sameItems (Wire.passThroughItems (toWireItems vs)) vs = arePlain vs
  | [], _ => rfl
  | v :: rest, h => by
    obtain ⟨hv, hrest⟩ := Bool.and_eq_true_iff.1 h
    rw [toWireItems, Wire.passThroughItems, sameItems, arePlain, same_passThrough v hv,
      sameItems_passThrough rest hrest]
end

end Native

/-- Whether a shape leaves a wire value as it is. -/
def Wire.passes : Wire → Shape → Bool
  | .null, _ => true
  | .number _, .int | .number _, .long => false
  | .array _, .array _ => false
  | _, .capability _ => false
  | _, _ => true

namespace Session

mutual
/-- Whether a value comes back from its wire form when the shape is expected. -/
def Fits (s : Session) : Native → Shape → Prop
  | .null, _ => True
  | .ref r, .capability _ => r.session = s.id ∧ r.generation = s.generation
  | _, .capability _ => False
  | .array items, .array element => ItemsFit s items element
  | .int _, .int => True
  | .long n, .long => (∃ x : Double, x.Is n.toInt) ∨ n = Int64.maxValue
  | .double _, .int | .double _, .long => False
  | v, _ => v.isPlain = true

def ItemsFit (s : Session) : List Native → Shape → Prop
  | [], _ => True
  | v :: rest, element => Fits s v element ∧ ItemsFit s rest element
end

/-- The wire form of a value converts for the shape, and to an equal value. -/
def ComesBack (s : Session) (v : Native) (shape : Shape) : Prop :=
  ∃ u, (s.fromWire v.toWire shape).result = .ok u ∧ u.same v = true

theorem fromWire_passes {w : Wire} {shape : Shape} (s : Session) (h : w.passes shape = true) :
    s.fromWire w shape = ⟨.ok w.passThrough, []⟩ := by
  cases w with
  | null => rw [fromWire]; rfl
  | _ => cases shape <;> first | rfl | cases h

variable {s : Session} {v : Native} {shape : Shape}

theorem comesBack_of_passes (hnan : v.noNaN = true) (h : v.toWire.passes shape = true) :
    s.ComesBack v shape ↔ v.isPlain = true := by
  rw [ComesBack, fromWire_passes s h, ← Native.same_passThrough v hnan]
  simp

/-- Only null and references come back where a reference is expected. -/
theorem comesBack_reference (name : String) :
    s.ComesBack v (.capability name) ↔ s.Fits v (.capability name) := by
  cases v with
  | null => exact ⟨fun _ => trivial, fun _ => ⟨.null, by rw [Native.toWire, fromWire], rfl⟩⟩
  | ref r =>
    have htoken : (Native.ref r).toWire.handle? = some r.handle := Handle.ofToken?_token r.handle
    rw [ComesBack, fromWire_reference s name rfl, referenceOf_token s name htoken]
    simp only [Except.ok.injEq, exists_eq_left', Native.same, Reference.same, Reference.slot, mint, beq_iff_eq,
      Reference.Slot.mk.injEq, true_and, Fits]
    rw [eq_comm, and_comm, eq_comm (a := s.id)]
  | foreign t =>
    refine ⟨?_, False.elim⟩
    rintro ⟨u, hu, hsame⟩
    rw [Native.toWire, fromWire] at hu
    obtain rfl := Except.ok.inj hu
    cases hsame
  | _ =>
    refine ⟨?_, False.elim⟩
    rintro ⟨u, hu, hsame⟩
    obtain ⟨r, rfl⟩ := fromWire_reference_ok rfl hu
    cases hsame

theorem comesBack_int (hnan : v.noNaN = true) :
    s.ComesBack v .int ↔ s.Fits v .int := by
  cases v with
  | int n =>
    refine ⟨fun _ => trivial, fun _ => ⟨.int n, ?_, beq_self_eq_true n⟩⟩
    rw [Native.toWire, fromWire, Double.toInt32_ofInt]
  | long n => simp [ComesBack, Native.toWire, fromWire, Native.same, Fits, Native.isPlain]
  | double x => simp [ComesBack, Native.toWire, fromWire, Native.same, Fits]
  | null => exact ⟨fun _ => trivial, fun _ => ⟨.null, by rw [Native.toWire, fromWire], rfl⟩⟩
  | _ => exact comesBack_of_passes hnan rfl

theorem comesBack_long (hnan : v.noNaN = true) :
    s.ComesBack v .long ↔ s.Fits v .long := by
  cases v with
  | long n =>
    have hiff := Double.toInt64_ofInt n
    simpa [ComesBack, Native.toWire, fromWire, Native.same, Fits] using hiff
  | int n => simp [ComesBack, Native.toWire, fromWire, Native.same, Fits, Native.isPlain]
  | double x => simp [ComesBack, Native.toWire, fromWire, Native.same, Fits]
  | null => exact ⟨fun _ => trivial, fun _ => ⟨.null, by rw [Native.toWire, fromWire], rfl⟩⟩
  | _ => exact comesBack_of_passes hnan rfl

theorem comesBack_null (s : Session) (shape : Shape) :
    s.ComesBack .null shape ↔ s.Fits .null shape :=
  ⟨fun _ => by rw [Fits]; trivial, fun _ => ⟨.null, by rw [Native.toWire, fromWire], rfl⟩⟩

mutual
theorem comesBack_iff (s : Session) (v : Native) (shape : Shape) (hnan : v.noNaN = true) :
    s.ComesBack v shape ↔ s.Fits v shape := by
  cases shape with
  | capability name => exact comesBack_reference name
  | int => exact comesBack_int hnan
  | long => exact comesBack_long hnan
  | array element =>
    cases v with
    | null => exact comesBack_null s _
    | array items =>
      have hitems := itemsComeBack_iff s items element hnan
      rw [ComesBack, Native.toWire, fromWire_items, Fits, ← hitems]
      constructor
      · rintro ⟨u, hu, hsame⟩
        rcases hr : (s.fromWireItems (Native.toWireItems items) element).result with e | us <;>
          simp only [hr, Except.map] at hu
        · cases hu
        · obtain rfl := Except.ok.inj hu
          exact ⟨us, rfl, hsame⟩
      · rintro ⟨us, hus, hsame⟩
        exact ⟨.array us, by rw [hus]; rfl, hsame⟩
    | _ => exact comesBack_of_passes hnan rfl
  | _ =>
    cases v with
    | null => exact comesBack_null s _
    | _ => exact comesBack_of_passes hnan rfl

theorem itemsComeBack_iff (s : Session) (vs : List Native) (element : Shape) (hnan : Native.noNaNs vs = true) :
    (∃ us, (s.fromWireItems (Native.toWireItems vs) element).result = .ok us ∧ Native.sameItems us vs = true) ↔
      s.ItemsFit vs element := by
  cases vs with
  | nil => exact ⟨fun _ => trivial, fun _ => ⟨[], rfl, rfl⟩⟩
  | cons v rest =>
    obtain ⟨hv, hrest⟩ := Bool.and_eq_true_iff.1 hnan
    rw [ItemsFit, ← comesBack_iff s v element hv, ← itemsComeBack_iff s rest element hrest, ComesBack,
      Native.toWireItems, fromWireItems]
    rcases hfirst : (s.fromWire v.toWire element).result with e | u
    · simp
    · rcases hothers : (s.fromWireItems (Native.toWireItems rest) element).result with e | us <;>
        simp [hothers, Except.map, Native.sameItems]
end

/-- A value comes back from its wire form exactly when it fits the shape. -/
theorem round_trip_iff_fits (s : Session) (v : Native) (shape : Shape) (hnan : v.noNaN = true) :
    (∃ u, (s.fromWire v.toWire shape).result = .ok u ∧ u.same v = true) ↔ s.Fits v shape :=
  comesBack_iff s v shape hnan

theorem round_trip_greatest : (Native.array [.null, .long Int64.maxValue]).noNaN = true ∧
    (∃ u, ((⟨0, {}, 1⟩ : Session).fromWire (Native.array [.null, .long Int64.maxValue]).toWire
      (.array .long)).result = .ok u ∧ u.same (.array [.null, .long Int64.maxValue]) = true) ∧
    ¬ ∃ u, ((⟨0, {}, 1⟩ : Session).fromWire (Native.array [.null, .long Int64.maxValue]).toWire
      .any).result = .ok u ∧ u.same (.array [.null, .long Int64.maxValue]) = true :=
  ⟨rfl, (round_trip_iff_fits _ _ _ rfl).2 ⟨trivial, .inr rfl, trivial⟩,
    fun h => Bool.false_ne_true ((round_trip_iff_fits _ _ _ rfl).1 h)⟩

end Session
end ScriptBridge
