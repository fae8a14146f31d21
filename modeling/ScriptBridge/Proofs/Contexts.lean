import ScriptBridge.Proofs.Installing

/-! New contexts. The language's own objects are in place in them, and a table can be installed. -/
namespace ScriptBridge.Script

instance (h : Heap) (a : Address) (k : Key) (v : Value) : Decidable (h.Holds a k v) :=
  decidable_of_iff ((h.find? a k).any fun p => decide (p.value = v)) <| by
    simp [Heap.Holds, Option.any_eq_true]

/-- Where the language's own functions lie in a new context. -/
private theorem initial_library :
    (∀ e ∈ [(Heap.global, "Array", Value.object 12), (12, "isArray", .object 38),
        (Heap.global, "NaN", .number (.float Double.nan)), (Heap.global, "Infinity", .number (.float Double.infinity)),
        (Heap.global, "globalThis", .object Heap.global), (Heap.global, "Object", .object 10),
        (10, "defineProperty", .object 19), (10, "prototype", .object Heap.objectProto),
        (Heap.objectProto, "hasOwnProperty", .object 43), (43, "call", .object 49), (Heap.global, "Map", .object 13),
        (Heap.mapProto, "get", .object 82), (Heap.mapProto, "set", .object 83)],
      Heap.initial.Holds e.1 (.ofText e.2.1) e.2.2) ∧
    (∀ e ∈ [(12, Builtin.array), (38, .isArray), (19, .defineProperty), (43, .hasOwnProperty), (49, .call), (13, .map),
        (82, .mapGet), (83, .mapSet)], Heap.initial.code? e.1 = some (.builtin e.2)) ∧
    (∀ e ∈ [(Heap.arrayProto, some Heap.objectProto), (Heap.objectProto, none)], Heap.initial.isProxy e.1 = false ∧
      (Heap.initial.object e.1).proto = e.2 ∧ (Heap.initial.object e.1).elements.isEmpty = true) ∧
    (Heap.initial.object Heap.global).kind = .ordinary ∧
    (∀ a < Heap.initial.objects.size, Heap.initial.own? a (.ofText "nsiId") = none) ∧
    ∀ b ∈ [Heap.arrayProto, Heap.objectProto], ∀ e ∈ (Heap.initial.object b).names, e.1.lettered = true := by decide +kernel

theorem Foundations.initial : Foundations Heap.initial := by
  obtain ⟨hholds, hcode, hprotos, hglobal, -⟩ := initial_library
  simp only [List.forall_mem_cons, List.not_mem_nil, false_implies, implies_true, and_true] at hholds hcode hprotos
  obtain ⟨harray, hisArray, hnan, hinfinity, hthis, hobject, hdefine, hprototype, hhasOwn, hcall, hmap, hget, hset⟩ := hholds
  obtain ⟨harray', hisArray', hdefine', hhasOwn', hcall', hmap', hget', hset'⟩ := hcode
  have hwritable {a : Address} (hempty : (Heap.initial.object a).elements.isEmpty = true) (i : Nat) (p : Property)
      (hp : (Heap.initial.object a).elements[i]? = some p) : p.writable = true := by
    rw [Std.TreeMap.getElem?_of_isEmpty hempty] at hp
    cases hp
  exact {
    library := {
      array := ⟨12, harray, harray', 38, hisArray, hisArray'⟩
      nan := hnan
      infinity := hinfinity
      arrayProto := ⟨hprotos.1.1, hprotos.1.2.1, hwritable hprotos.1.2.2⟩
      objectProto := ⟨hprotos.2.1, hprotos.2.2.1, hwritable hprotos.2.2.2⟩ }
    global := hglobal
    object := ⟨10, Heap.objectProto, 43, hobject, ⟨19, hdefine, hdefine'⟩, hprototype, hhasOwn, hhasOwn', 49, hcall, hcall'⟩
    map := ⟨13, hmap, hmap'⟩
    mapGet := ⟨82, hget, hget'⟩
    mapSet := ⟨83, hset, hset'⟩
    globalThis := hthis }

theorem Bare.initial : Bare Heap.initial := by
  obtain ⟨-, -, hprotos, -⟩ := initial_library
  simp only [List.forall_mem_cons, List.not_mem_nil, false_implies, implies_true, and_true] at hprotos
  exact fun i => ⟨Std.TreeMap.getElem?_of_isEmpty hprotos.1.2.2, Std.TreeMap.getElem?_of_isEmpty hprotos.2.2.2⟩

/-- No object of a new context has a tag. -/
theorem Heap.own?_initial (a : Address) : Heap.initial.own? a (.ofText "nsiId") = none := by
  obtain ⟨-, -, -, -, hnone, -⟩ := initial_library
  by_cases ha : a < Heap.initial.objects.size
  · exact hnone a ha
  · exact Heap.own?_of_size_le (Nat.le_of_not_lt ha) _

/-- The names of what arrays inherit in a new context are words that no number is written as. -/
theorem Heap.lettered_initial {b : Address} {x : Content} {p : Property} (hb : b = Heap.arrayProto ∨ b = Heap.objectProto)
    (hp : Heap.initial.own? b (.name x) = some p) : (Key.name x).lettered = true := by
  obtain ⟨-, -, hprotos, -, -, hlettered⟩ := initial_library
  have hmem : b ∈ [Heap.arrayProto, Heap.objectProto] := by rcases hb with rfl | rfl <;> decide
  have hproxy : Heap.initial.isProxy b = false := by
    rcases hb with rfl | rfl
    · exact (hprotos _ (.head _)).1
    · exact (hprotos _ (.tail _ (.head _))).1
  by_cases hlength : Key.name x = .length
  · rw [hlength]
    decide
  · rw [own?_of_ne_length hlength, stored, storage_of_not_isProxy hproxy] at hp
    exact hlettered b hmem _ (Object.mem_names_of_property? hp)

/-- A new context takes the installation of the configuration that nothing has changed. -/
theorem Installation.outcome_initial :
    ∃ h, outcome (Installation.of {} (.name "globalThis")).run Heap.initial = (.ok .undefined, h) := by
  have hdone : (outcome (Installation.of {} (.name "globalThis")).run Heap.initial).1.toOption = some .undefined := by
    decide +kernel
  rcases hrun : outcome (Installation.of {} (.name "globalThis")).run Heap.initial with ⟨e | v, h⟩ <;> rw [hrun] at hdone
  · cases hdone
  · obtain rfl := Option.some.inj hdone
    exact ⟨h, rfl⟩

end ScriptBridge.Script
