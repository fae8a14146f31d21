import ScriptBridge.Proofs.TypedResults

/-! Typed values that go out to the engine and come back. A type has three readings of its own: the native value that
it hands out, the shape that it expects, and what it reads of a native value. They agree on every nesting of lists and
options in which null stands for one thing only. -/
namespace ScriptBridge

namespace ResultType

def isOption : ResultType → Bool
  | option _ => true
  | _ => false

/-- The types of the values that both sides have. No option is an element of another: both would be null. -/
def isBridged : ResultType → Bool
  | bool | int | long | double | text | standIn _ => true
  | unit | native | reference => false
  | option t => !t.isOption && t.isBridged
  | list t => t.isBridged

/-- Only a missing option goes out as null. -/
theorem toWire_toNative_ne_null {t : ResultType} (ht : t.isBridged = true) (hoption : t.isOption = false)
    (x : t.Carrier) : (t.toNative x).toWire ≠ .null := by
  cases t with
  | unit | native | reference => cases ht
  | option t => cases hoption
  | _ => exact nofun

end ResultType

namespace Session

/-- Whether the way over the engine leaves a typed value as it is: integers of 64 bits have to be numbers, or the
greatest one, and stand-ins have to belong to the current generation. -/
def Carries (s : Session) : (t : ResultType) → t.Carrier → Prop
  | .long, n => (∃ x : Double, x.Is (Int64.toInt n)) ∨ n = Int64.maxValue
  | .standIn _, x => x.reference.Stamped s
  | .option _, none => True
  | .option t, some x => s.Carries t x
  | .list t, (xs : List t.Carrier) => ∀ x ∈ xs, s.Carries t x
  | _, _ => True

/-- The value is read again from what its own wire form becomes. -/
def Returns (s : Session) (t : ResultType) (x : t.Carrier) : Prop :=
  ∃ v, (s.fromWire (t.toNative x).toWire t.shape).result = .ok v ∧ t.ofNative v = .ok x

variable {s : Session}

theorem returns_int (n : Int32) : s.Returns .int n := by
  have hconverted : (s.fromWire (Native.int n).toWire .int).result = .ok (.int n) := by
    rw [Native.toWire, fromWire, Double.toInt32_ofInt]
  exact ⟨_, hconverted, rfl⟩

theorem returns_long (n : Int64) :
    s.Returns .long n ↔ (∃ x : Double, x.Is n.toInt) ∨ n = Int64.maxValue := by
  have hconverted : (s.fromWire (Native.long n).toWire .long).result = .ok (.long (Double.ofInt n.toInt).toInt64) := by
    rw [Native.toWire, fromWire]
  rw [← Double.toInt64_ofInt]
  constructor
  · rintro ⟨v, hv, hx⟩
    obtain rfl := Except.ok.inj (hconverted.symm.trans hv)
    exact Except.ok.inj hx
  · intro hn
    exact ⟨_, hconverted, congrArg Except.ok hn⟩

/-- A stand-in comes back as a reference that the session makes anew of its handle. -/
theorem returns_standIn {c : Capability} (x : StandIn c) :
    s.Returns (.standIn c) x ↔ x.reference.Stamped s := by
  have htoken : (Native.ref x.reference).toWire.handle? = some x.reference.handle := Handle.ofToken?_token _
  have hminted : (s.fromWire (Native.ref x.reference).toWire (.capability c.name)).result =
      .ok (.ref (s.mint x.reference.handle c.name)) := by
    rw [fromWire_reference s c.name rfl, referenceOf_token s c.name htoken]
  constructor
  · rintro ⟨v, hv, hx⟩
    obtain rfl := Except.ok.inj (hminted.symm.trans hv)
    have hx : StandIn.ofReference c (s.mint x.reference.handle c.name) = x := Except.ok.inj hx
    rw [← hx]
    exact s.mint_stamped _ _
  · obtain ⟨⟨session, h, name, generation⟩, htyped⟩ := x
    obtain rfl : name = c.name := htyped
    rintro ⟨rfl, rfl⟩
    exact ⟨_, hminted, rfl⟩

theorem returns_some {t : ResultType} (ht : t.isBridged = true) (hoption : t.isOption = false) (x : t.Carrier) :
    s.Returns (.option t) (some x) ↔ s.Returns t x := by
  constructor
  · rintro ⟨v, hv, hx⟩
    rcases ResultType.ofNative_option_eq_ok.1 hx with ⟨-, hnone⟩ | ⟨-, y, hy, hread⟩
    · cases hnone
    · obtain rfl := Option.some.inj hy
      exact ⟨v, hv, hread⟩
  · rintro ⟨v, hv, hx⟩
    have hnull : v ≠ .null := by
      rintro rfl
      exact ResultType.toWire_toNative_ne_null ht hoption x (eq_null_of_fromWire hv)
    exact ⟨v, hv, ResultType.ofNative_option_eq_ok.2 (.inr ⟨hnull, x, rfl, hx⟩)⟩

/-- The items of a list go out and come back one by one. -/
theorem returnItems_iff {t : ResultType} (xs : List t.Carrier) :
    (∃ vs, (s.fromWireItems (Native.toWireItems (xs.map t.toNative)) t.shape).result = .ok vs ∧
      vs.mapM t.ofNative = .ok xs) ↔ ∀ x ∈ xs, s.Returns t x := by
  induction xs with
  | nil => exact iff_of_true ⟨[], rfl, rfl⟩ nofun
  | cons x xs ih =>
    rw [List.forall_mem_cons, ← ih]
    constructor
    · rintro ⟨vs, hvs, hxs⟩
      obtain ⟨v, vs, rfl, hv, hvs⟩ := fromWireItems_cons_eq_ok.1 hvs
      obtain ⟨_, _, hcons, hx, hxs⟩ := mapM_cons_eq_ok.1 hxs
      obtain ⟨rfl, rfl⟩ := List.cons.inj hcons
      exact ⟨⟨v, hv, hx⟩, vs, hvs, hxs⟩
    · rintro ⟨⟨v, hv, hx⟩, vs, hvs, hxs⟩
      exact ⟨v :: vs, fromWireItems_cons_eq_ok.2 ⟨v, vs, rfl, hv, hvs⟩, mapM_cons_eq_ok.2 ⟨x, xs, rfl, hx, hxs⟩⟩

theorem returns_list {t : ResultType} (xs : List t.Carrier) :
    s.Returns (.list t) xs ↔ ∀ x ∈ xs, s.Returns t x := by
  have hconverted : (s.fromWire (Native.array (xs.map t.toNative)).toWire (.array t.shape)).result =
      (s.fromWireItems (Native.toWireItems (xs.map t.toNative)) t.shape).result.map .array := by
    rw [Native.toWire, fromWire_items]
  rw [← returnItems_iff]
  constructor
  · rintro ⟨v, hv, hx⟩
    obtain ⟨vs, rfl, hvs⟩ := fromWire_items_ok hv
    exact ⟨vs, hvs, hx⟩
  · rintro ⟨vs, hvs, hxs⟩
    exact ⟨.array vs, hconverted.trans (by rw [hvs]; rfl), hxs⟩

theorem returns_iff_carries {t : ResultType} (ht : t.isBridged = true) (x : t.Carrier) :
    s.Returns t x ↔ s.Carries t x := by
  induction t with
  | unit | native | reference => cases ht
  | bool | double | text => exact iff_of_true ⟨_, rfl, rfl⟩ trivial
  | int => exact iff_of_true (returns_int x) trivial
  | long => exact returns_long x
  | standIn c => exact returns_standIn x
  | option t ih =>
    obtain ⟨hoption, ht⟩ := Bool.and_eq_true_iff.1 ht
    cases x with
    | none =>
      have hnull : (s.fromWire .null t.shape).result = .ok .null := by rw [fromWire]
      exact iff_of_true ⟨.null, hnull, rfl⟩ trivial
    | some x => exact (returns_some ht (by simpa using hoption) x).trans (ih ht x)
  | list t ih => exact (returns_list x).trans (forall₂_congr fun x _ => ih ht x)

/-- A value of a type that both sides have goes out as a wire value, is converted for the type's shape and read by the
type again. It comes back as itself, numbers bit by bit, exactly when the way over the engine leaves it as it is,
whatever the policy for tokens. -/
theorem typed_round_trip_iff_carries (s : Session) (t : ResultType) (ht : t.isBridged = true) (x : t.Carrier) :
    (s.fromWire (t.toNative x).toWire t.shape).result.bind t.ofNative = .ok x ↔ s.Carries t x := by
  rw [← returns_iff_carries ht, Returns]
  rcases (s.fromWire (t.toNative x).toWire t.shape).result with e | v <;> simp [Except.bind]

/-- A list of optional stand-ins, one of them missing, and one of lists of integers with the greatest one. -/
theorem typed_round_trip_nested :
    let s : Session := ⟨0, {}, 3⟩
    let x : StandIn Capability.dynamic := s.standIn Capability.dynamic Handle.root
    (ResultType.list (.option (.standIn Capability.dynamic))).isBridged = true ∧
    (s.fromWire (.array [.ofHandle Handle.root, .null]) (.array (.capability "Dynamic"))).result.bind
        (ResultType.list (.option (.standIn Capability.dynamic))).ofNative = .ok [some x, none] ∧
    (ResultType.option (.list (.list .long))).isBridged = true ∧
    (s.fromWire (.array [.array [], .array [.number (Double.ofInt Int64.maxValue.toInt)]])
      (.array (.array .long))).result.bind (ResultType.option (.list (.list .long))).ofNative =
        .ok (some [[], [Int64.maxValue]]) := by
  intro s x
  refine ⟨rfl, (typed_round_trip_iff_carries s (.list (.option (.standIn Capability.dynamic))) rfl
    [some x, none]).2 ?_, rfl, (typed_round_trip_iff_carries s (.option (.list (.list .long))) rfl
    (some [[], [Int64.maxValue]])).2 ?_⟩
  · intro y hy
    rcases List.mem_pair.1 hy with rfl | rfl
    · exact ⟨rfl, rfl⟩
    · trivial
  · intro ns hns n hn
    rcases List.mem_pair.1 hns with rfl | rfl
    · cases hn
    · exact .inr (List.mem_singleton.1 hn)

end Session
end ScriptBridge
