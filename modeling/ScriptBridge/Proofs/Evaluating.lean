import ScriptBridge.Proofs.Layouts
import ScriptBridge.Proofs.Parsing

/-! Evaluation of rendered values: the expression as which a value is read makes its arrays anew, item by item, and
finds its references in the table. -/
namespace ScriptBridge

open Script

mutual
/-- The greatest number of items of an array in a value. -/
def Native.width : Native → Nat
  | .array items => max items.length (itemWidth items)
  | _ => 0

def Native.itemWidth : List Native → Nat
  | [] => 0
  | v :: rest => max v.width (itemWidth rest)
end

namespace Double

theorem neg_ofRatio (negative : Bool) (num den : Nat) : (ofRatio negative num den).neg = ofRatio (!negative) num den := by
  rw [neg, negative_ofRatio, magnitude_ofRatio, ofRatio]

theorem neg_ofParts {m : Nat} (hm : m < 2 ^ 63) : (ofParts false m).neg = ofParts true m := by
  rw [neg, negative_ofParts false hm, magnitude_ofParts false hm, Bool.not_false]

end Double

namespace Script

theorem Number.toDouble_neg (x : Number) : x.neg.toDouble = x.toDouble.neg := by
  cases x with
  | float x => rfl
  | int n =>
    by_cases hn : n = 0
    · rw [hn]
      rfl
    · have hzero : n.toInt ≠ 0 := fun h => hn (Int32.toInt_inj.1 h)
      have hsign : decide (-n.toInt < 0) = !decide (n.toInt < 0) := by
        rw [← decide_not]
        exact decide_eq_decide.2 (by omega)
      rw [neg, if_neg hn, toDouble_ofInt, toDouble, Double.ofInt, Double.ofInt, Double.neg_ofRatio, hsign, Int.natAbs_neg]

/-- The map of a table's tokens: a text names an object when it is the token of a slot where the object is found. -/
def Memory.Names (m : Memory) (h : Heap) (token : String) (a : Address) : Prop :=
  ∃ n, Registered h m n a ∧ token = m.scheme ++ String.ofList (Text.decimal n)

variable {h h' : Heap} {m : Memory} {x : String} {v : Value}

theorem Scope.find?_of_names_nil {s : Scope} (hs : s.names = []) (x : String) : s.find? x = none := by
  rw [find?, hs]
  rfl

theorem Scope.outcome_lookup {s : Scope} (hs : s.find? x = none) (hx : x ≠ "arguments")
    (hv : h.Holds Heap.global (.ofText x) v) : outcome (s.lookup x) h = (.ok v, h) := by
  have hfound : outcome (s.lookup? x) h = (.ok (some v), h) := by
    rw [lookup?, hs]
    cases s.arguments with
    | none => exact Run.outcome_global? hv
    | some args =>
      dsimp only
      rw [if_neg hx, Run.outcome_global? hv]
  rw [lookup, outcome_bind_ok hfound]
  rfl

namespace Expr

theorem outcome_constant (s : Scope) (v : Value) (h : Heap) : outcome ((constant v).evaluate s) h = (.ok v, h) := by
  rw [evaluate, outcome_pure]

theorem outcome_name {s : Scope} (hs : s.find? x = none) (hx : x ≠ "arguments") (hv : h.Holds Heap.global (.ofText x) v) :
    outcome ((name x).evaluate s) h = (.ok v, h) := by
  rw [evaluate, Scope.outcome_lookup hs hx hv]

theorem outcome_negate {s : Scope} {e : Expr} {n : Number} (he : outcome (e.evaluate s) h = (.ok (.number n), h')) :
    outcome ((negate e).evaluate s) h = (.ok (.number n.neg), h') := by
  rw [evaluate, outcome_bind_ok he]
  rfl

private theorem outcome_magnitude (hlibrary : Library h) (x : Double) : ∃ n : Number,
    outcome ((if x.isInfinite then name "Infinity"
      else constant (.number (.ofDouble (.ofParts false x.magnitude)))).evaluate .body) h = (.ok (.number n), h) ∧
    n.toDouble = .ofParts false x.magnitude := by
  cases hinf : x.isInfinite with
  | true =>
    have hmag : x.magnitude = Double.infinite := of_decide_eq_true hinf
    refine ⟨_, outcome_name rfl (by decide) hlibrary.infinity, ?_⟩
    rw [hmag]
    rfl
  | false => exact ⟨_, outcome_constant .body _ h, Number.toDouble_ofDouble _⟩

/-- The expression of a number gives it. -/
theorem outcome_double (hlibrary : Library h) (x : Double) : ∃ n : Number,
    outcome (x.expr.evaluate .body) h = (.ok (.number n), h) ∧ n.toDouble = x.canonical := by
  unfold Double.expr Double.canonical
  cases hnan : x.isNaN with
  | true => exact ⟨_, outcome_name rfl (by decide) hlibrary.nan, rfl⟩
  | false =>
    obtain ⟨n, hn, hvalue⟩ := outcome_magnitude hlibrary x
    have hself := Double.ofParts_self x
    have hroom : x.magnitude < 2 ^ 63 := Nat.mod_lt _ (by decide)
    rw [if_neg Bool.false_ne_true, if_neg Bool.false_ne_true]
    cases hneg : x.negative with
    | true =>
      refine ⟨n.neg, outcome_negate hn, ?_⟩
      rw [Number.toDouble_neg, hvalue, Double.neg_ofParts hroom, ← hneg, hself]
    | false =>
      refine ⟨n, hn, hvalue.trans ?_⟩
      rw [← hneg, hself]

theorem outcome_slot {s : Scope} {n : Nat} {t : Address} (hn : n < 2 ^ 32) (hs : s.find? x = none) (hx : x ≠ "arguments")
    (ht : h.Holds Heap.global (.ofText x) (.object t)) :
    outcome ((index (name x) (constant (.number (.ofDouble (.ofNat n))))).evaluate s) h = (.ok (h.get t (.ofNat n)), h) := by
  have hkey : Run.key Run.invoke (.number (.ofDouble (.ofNat n))) = pure (.ofNat n) :=
    Run.key_number hn (Number.toDouble_ofDouble _)
  rw [evaluate, outcome_bind_ok (outcome_name hs hx ht), outcome_bind_ok (outcome_constant s _ h), hkey, pure_bind,
    Run.outcome_read_object]

end Expr

theorem Converter.fuelFor_alloc {o : Object} {k : Nat} {w : Bool} (hkind : o.kind = .array k w) (h : Heap) :
    fuelFor (h.alloc o).1 = fuelFor h + k + 4 := by
  rw [fuelFor, Heap.alloc, fuelFor, Array.foldl_push, hkind]

theorem Lies.grown (hgrown : h.Grown h') {w : Wire} (hv : Lies h (· < h.objects.size) (m.Names h) w v) :
    Lies h' (· < h'.objects.size) (m.Names h') w v :=
  hv.mono (fun a ha => ⟨ha.trans_le hgrown.size, hgrown.object a ha⟩)
    (fun _ _ ⟨n, hregistered, htoken⟩ => ⟨n, hregistered.grown hgrown, htoken⟩) w

theorem LieAll.grown (hgrown : h.Grown h') {ws : List Wire} {vs : List Value}
    (hvs : LieAll h (· < h.objects.size) (m.Names h) ws vs) : LieAll h' (· < h'.objects.size) (m.Names h') ws vs :=
  hvs.mono (fun a ha => ⟨ha.trans_le hgrown.size, hgrown.object a ha⟩)
    (fun _ _ ⟨n, hregistered, htoken⟩ => ⟨n, hregistered.grown hgrown, htoken⟩) ws

/-- The references of a value belong to a session and name registered objects. -/
def Memory.Knows (m : Memory) (h : Heap) (s : Session) (rs : List Reference) : Prop :=
  ∀ r ∈ rs, s.owns r = true ∧ ∃ a, Registered h m r.handle.index a

theorem Memory.Knows.grown (hgrown : h.Grown h') {s : Session} {rs : List Reference} (hknows : m.Knows h s rs) :
    m.Knows h' s rs := by
  intro r hr
  obtain ⟨howns, a, ha⟩ := hknows r hr
  exact ⟨howns, a, ha.grown hgrown⟩

namespace Expr

private theorem double_ne_hole (x : Double) : x.expr ≠ .hole := by
  unfold Double.expr
  dsimp only
  split
  · exact nofun
  · split
    · exact nofun
    · split <;> exact nofun

private theorem expr_ne_hole (table : String) (owner : Option Session) (v : Native) : v.expr table owner ≠ .hole := by
  cases v with
  | int n => exact double_ne_hole _
  | long n => exact double_ne_hole _
  | double x => exact double_ne_hole _
  | ref r =>
    rw [Native.expr]
    split <;> exact nofun
  | _ => exact nofun

private theorem length_exprs (table : String) (owner : Option Session) (vs : List Native) :
    (Native.exprs table owner vs).length = vs.length := by
  induction vs with
  | nil => rfl
  | cons v rest ih => rw [Native.exprs, List.length_cons, List.length_cons, ih]

private theorem length_canonicalItems (vs : List Native) :
    (Wire.canonicalItems (Native.toWireItems vs)).length = vs.length := by
  induction vs with
  | nil => rfl
  | cons v rest ih => rw [Native.toWireItems, Wire.canonicalItems, List.length_cons, List.length_cons, ih]

private theorem evaluateItems_value (s : Scope) (i : Nat) (found : Std.TreeMap Nat Property) (table : String)
    (owner : Option Session) (v : Native) (rest : List Expr) :
    evaluateItems s i found (v.expr table owner :: rest) = (do
      let w ← (v.expr table owner).evaluate s
      evaluateItems s (i + 1) (found.insert i (.plain w)) rest) := by
  rw [evaluateItems]
  exact expr_ne_hole table owner v

/-- What the evaluation of a value makes: the value lies in the heap, and the converter has fuel for its arrays. -/
structure Makes (m : Memory) (h h' : Heap) (w : Wire) (v : Value) : Prop where
  grown : h.Grown h'
  fuel : Converter.fuelFor h + w.cost ≤ Converter.fuelFor h'
  lies : Lies h' (· < h'.objects.size) (m.Names h') w v

variable {s : Session}

private theorem makes_refl {w : Wire} (hcost : w.cost = 0) (hlies : Lies h (· < h.objects.size) (m.Names h) w v) :
    Makes m h h w v := ⟨.refl h, by rw [hcost, Nat.add_zero], hlies⟩

private theorem makes_double (hlibrary : Library h) (x : Double) :
    ∃ v, outcome (x.expr.evaluate .body) h = (.ok v, h) ∧ Makes m h h (Wire.number x).canonical v := by
  obtain ⟨n, hn, hvalue⟩ := outcome_double hlibrary x
  exact ⟨_, hn, makes_refl rfl ⟨n, rfl, hvalue⟩⟩

mutual
/-- A rendered value is made anew, with the objects that its references name. -/
theorem outcome_value (htable : s.config.tableName ≠ "arguments") : (v : Native) → {h : Heap} →
    Installed s.config m h → m.Knows h s v.references → v.width < 2 ^ 32 → ∃ w h',
      outcome ((v.expr s.config.tableName (some s)).evaluate .body) h = (.ok w, h') ∧ Makes m h h' v.toWire.canonical w
  | .null, h, _, _, _ => ⟨.null, h, outcome_constant .body _ h, makes_refl rfl rfl⟩
  | .bool b, h, _, _, _ => ⟨.bool b, h, outcome_constant .body _ h, makes_refl rfl rfl⟩
  | .int n, h, hinstalled, _, _ => by
    obtain ⟨w, hw, hmakes⟩ := makes_double hinstalled.library (Double.ofInt n.toInt)
    exact ⟨w, h, hw, hmakes⟩
  | .long n, h, hinstalled, _, _ => by
    obtain ⟨w, hw, hmakes⟩ := makes_double hinstalled.library (Double.ofInt n.toInt)
    exact ⟨w, h, hw, hmakes⟩
  | .double x, h, hinstalled, _, _ => by
    obtain ⟨w, hw, hmakes⟩ := makes_double hinstalled.library x
    exact ⟨w, h, hw, hmakes⟩
  | .text t, h, _, _, _ => ⟨.text t, h, outcome_constant .body _ h, makes_refl rfl (.inl rfl)⟩
  | .foreign _, h, _, _, _ => ⟨.null, h, outcome_constant .body _ h, makes_refl rfl rfl⟩
  | .ref r, h, hinstalled, hknows, _ => by
    obtain ⟨howns, a, ha⟩ := hknows r (by simp [Native.references])
    obtain ⟨t, ht, hslot⟩ := ha.slot
    have hexpr : (Native.ref r).expr s.config.tableName (some s) =
        .index (.name s.config.tableName) (.constant (.number (.ofDouble (.ofNat r.handle.index)))) := if_pos howns
    refine ⟨.object a, h, ?_, makes_refl rfl (.inr ⟨a, rfl, r.handle.index, ha, ?_⟩)⟩
    · rw [hexpr, outcome_slot ha.bound rfl htable (ht ▸ hinstalled.table), hslot.get_eq]
    · rw [hinstalled.scheme, ← String.ofList_append]
      rfl
  | .array items, h, hinstalled, hknows, hwidth => by
    rw [Native.width] at hwidth
    obtain ⟨elements, others, h', hitems, hgrown, hfuel, hfills, hlie⟩ :=
      outcome_values htable items hinstalled hknows (Nat.lt_of_le_of_lt (Nat.le_max_right _ _) hwidth) .empty
    have hlength : others.length = items.length := hlie.length.trans (length_canonicalItems items)
    have hexprs := length_exprs s.config.tableName (some s) items
    let o : Object := { kind := .array items.length true, proto := some Heap.arrayProto, elements }
    have halloc : h'.Grown (h'.alloc o).1 := .alloc h' o
    have hself : (h'.alloc o).1.object h'.objects.size = o := Heap.object_alloc_self h' o
    refine ⟨.object h'.objects.size, (h'.alloc o).1, ?_, hgrown.trans halloc, ?_, ?_⟩
    · rw [Native.expr, evaluate, hexprs]
      exact outcome_bind_ok hitems
    · rw [Converter.fuelFor_alloc rfl, Native.toWire, Wire.canonical, Wire.cost]
      omega
    · have harray : ArrayOf (h'.alloc o).1 h'.objects.size others :=
        ⟨by rw [hself, hlength], by rw [hself]; exact hfills,
          by rw [hlength]; exact Nat.lt_of_le_of_lt (Nat.le_max_left _ _) hwidth⟩
      exact ⟨_, others, rfl, by rw [Heap.size_alloc]; exact Nat.lt_succ_self _, harray, hlie.grown halloc⟩

theorem outcome_values (htable : s.config.tableName ≠ "arguments") : (vs : List Native) → {h : Heap} →
    {found : Std.TreeMap Nat Property} → {ws : List Value} → Installed s.config m h →
    m.Knows h s (Native.referencesOfItems vs) → Native.itemWidth vs < 2 ^ 32 → Fills found ws → ∃ elements others h',
      outcome (evaluateItems .body ws.length found (Native.exprs s.config.tableName (some s) vs)) h = (.ok elements, h') ∧
      h.Grown h' ∧
      Converter.fuelFor h + Wire.itemCost (Wire.canonicalItems (Native.toWireItems vs)) ≤ Converter.fuelFor h' + vs.length + 1 ∧
      Fills elements (ws ++ others) ∧
      LieAll h' (· < h'.objects.size) (m.Names h') (Wire.canonicalItems (Native.toWireItems vs)) others
  | [], h, found, ws, _, _, _, hfills => by
    refine ⟨found, [], h, ?_, .refl h, ?_, ?_, rfl⟩
    · rw [Native.exprs, evaluateItems, outcome_pure]
    · exact Nat.le_refl _
    · rwa [List.append_nil]
  | v :: rest, h, found, ws, hinstalled, hknows, hwidth, hfills => by
    rw [Native.itemWidth] at hwidth
    obtain ⟨w, h₁, hw, hmakes⟩ := outcome_value htable v hinstalled
      (fun r hr => hknows r (List.mem_append_left _ hr)) (Nat.lt_of_le_of_lt (Nat.le_max_left _ _) hwidth)
    have hknows' : m.Knows h₁ s (Native.referencesOfItems rest) :=
      .grown hmakes.grown fun r hr => hknows r (List.mem_append_right _ hr)
    obtain ⟨elements, others, h', hitems, hgrown, hfuel, hfills', hlie⟩ := outcome_values htable rest
      (hinstalled.grown hmakes.grown) hknows' (Nat.lt_of_le_of_lt (Nat.le_max_right _ _) hwidth) (hfills.insert w)
    refine ⟨elements, w :: others, h', ?_, hmakes.grown.trans hgrown, ?_, ?_, ?_⟩
    · rw [Native.exprs, evaluateItems_value, outcome_bind_ok hw]
      rwa [List.length_append] at hitems
    · have hfirst := hmakes.fuel
      rw [Native.toWireItems, Wire.canonicalItems, Wire.itemCost, List.length_cons]
      omega
    · rwa [List.append_assoc] at hfills'
    · exact ⟨w, others, rfl, hmakes.lies.grown hgrown, hlie⟩
end

end Expr
end Script
end ScriptBridge
