import ScriptBridge.Proofs.RoundTrip

/-! Converted values as normal forms. The wire form of a converted value need not be the one that was converted: a token
is written without the zeros in front of its number, a malformed one has become the root's, and a number has lost its
fraction or what of it lay beyond a bound. The same conversion makes the same value of both. -/
namespace ScriptBridge

namespace Double

theorem natAbs_truncated (x : Double) : x.truncated.natAbs = x.numerator / x.denominator := by
  unfold truncated
  split
  · rw [Int.natAbs_neg, Int.natAbs_natCast]
  · rw [Int.natAbs_natCast]

/-- What is left of a finite number without its fraction is a number again. -/
theorem exists_is_truncated {x : Double} (hfinite : x.isFinite = true) : ∃ y : Double, y.Is x.truncated := by
  rcases Int.le_total 0 x.scale with hscale | hscale
  · have hden : x.denominator = 1 := by
      rw [denominator, show (-x.scale).toNat = 0 by omega, pow_zero]
    refine ⟨x, hfinite, ?_⟩
    rw [truncated, hden, Nat.div_one, Nat.cast_one, mul_one]
  · have hnum : x.numerator = x.significand := by
      rw [numerator, show x.scale.toNat = 0 by omega, pow_zero, mul_one]
    have hsmall : x.truncated.natAbs < 2 ^ 53 := by
      rw [natAbs_truncated, hnum]
      exact (Nat.div_le_self _ _).trans_lt x.significand_lt
    exact ⟨_, is_ofInt hsmall⟩

/-- A narrowed number is a number again, or it is the upper bound. -/
theorem exists_is_narrow {lo hi : Int} (hle : lo ≤ hi) (hlo : (ofInt lo).Is lo) (x : Double) :
    (∃ y : Double, y.Is (narrow lo hi x)) ∨ narrow lo hi x = hi := by
  unfold narrow clamp
  split_ifs with hnan hinf hneg
  · exact .inl ⟨_, is_ofInt (by decide)⟩
  · exact .inl ⟨_, hlo⟩
  · exact .inr rfl
  · have hfinite : x.isFinite = true := isFinite_of_not (by simpa using hnan) (by simpa using hinf)
    rcases lt_or_ge x.truncated lo with hbelow | hfrom
    · rw [min_eq_right (by omega), max_eq_left hbelow.le]
      exact .inl ⟨_, hlo⟩
    · rcases le_or_gt x.truncated hi with hto | habove
      · rw [min_eq_right hto, max_eq_right hfrom]
        exact .inl (exists_is_truncated hfinite)
      · rw [min_eq_left habove.le, max_eq_right hle]
        exact .inr rfl

/-- The integer of 64 bits that a number becomes, comes back from the nearest number. -/
theorem toInt64_ofInt_toInt64 (x : Double) : (ofInt x.toInt64.toInt).toInt64 = x.toInt64 := by
  have hmem := narrow_mem (-2 ^ 63) (2 ^ 63 - 1) (by decide) (by decide) (by decide) x
  have hvalue : x.toInt64.toInt = narrow (-2 ^ 63) (2 ^ 63 - 1) x := Int64.toInt_ofInt_of_le hmem.1 (by omega)
  have hlo : (ofInt (-2 ^ 63)).Is (-2 ^ 63) := by
    unfold Is
    decide +kernel
  refine (toInt64_ofInt _).2 ?_
  rcases exists_is_narrow (by decide : (-2 ^ 63 : Int) ≤ 2 ^ 63 - 1) hlo x with hnumber | hgreatest
  · exact .inl (hvalue ▸ hnumber)
  · exact .inr (Int64.toInt_inj.1 (hvalue.trans hgreatest))

end Double

mutual
/-- What passes through keeps its wire form. -/
theorem Wire.toWire_passThrough : (w : Wire) → w.passThrough.toWire = w
  | .null | .bool _ | .number _ | .text _ => rfl
  | .array items => by rw [Wire.passThrough, Native.toWire, Wire.toWireItems_passThroughItems items]

theorem Wire.toWireItems_passThroughItems : (ws : List Wire) → Native.toWireItems (Wire.passThroughItems ws) = ws
  | [] => rfl
  | w :: rest => by
    rw [Wire.passThroughItems, Native.toWireItems, Wire.toWire_passThrough w, Wire.toWireItems_passThroughItems rest]
end

namespace Session

variable {s : Session} {w : Wire} {v : Native} {shape : Shape}

theorem passes_or_integer (h : w.settled shape = true) :
    w.passes shape = true ∨ ∃ x, w = .number x ∧ (shape = .int ∨ shape = .long) := by
  cases w with
  | number x => cases shape <;> simp_all [Wire.passes, Wire.settled]
  | _ => cases shape <;> first | exact .inl rfl | cases h

/-- The value that a conversion takes at once comes back as it is. -/
theorem fromWire_again_settled (hsettled : w.settled shape = true) (h : (s.fromWire w shape).result = .ok v) :
    s.fromWire v.toWire shape = ⟨.ok v, []⟩ := by
  rcases passes_or_integer hsettled with hpasses | ⟨x, rfl, rfl | rfl⟩
  · rw [fromWire_passes s hpasses] at h
    obtain rfl := Except.ok.inj h
    rw [Wire.toWire_passThrough, fromWire_passes s hpasses]
  · rw [fromWire] at h
    obtain rfl := Except.ok.inj h
    rw [Native.toWire, fromWire, Double.toInt32_ofInt]
  · rw [fromWire] at h
    obtain rfl := Except.ok.inj h
    rw [Native.toWire, fromWire, Double.toInt64_ofInt_toInt64]

/-- A minted reference is minted again from its token, whatever it was minted from. -/
theorem fromWire_again_mint (s : Session) (a : Handle) (name : String) :
    s.fromWire (Native.ref (s.mint a name)).toWire (.capability name) = ⟨.ok (.ref (s.mint a name)), []⟩ := by
  have htoken : (Native.ref (s.mint a name)).toWire.handle? = some a := Handle.ofToken?_token a
  rw [fromWire_reference s name rfl, referenceOf_token s name htoken]

mutual
theorem fromWire_again (s : Session) (w : Wire) (shape : Shape) {v : Native}
    (h : (s.fromWire w shape).result = .ok v) : s.fromWire v.toWire shape = ⟨.ok v, []⟩ :=
  match w, shape, w.rule shape with
  | _, _, .items items element => by
    obtain ⟨vs, rfl, hvs⟩ := fromWire_items_ok h
    rw [Native.toWire, fromWire_items, fromWireItems_again s items element hvs]
    rfl
  | w, _, .reference name hnull => by
    rw [fromWire_reference s name hnull] at h
    obtain ⟨a, rfl⟩ := referenceOf_ok h
    exact fromWire_again_mint s a name
  | _, _, .settled hsettled => fromWire_again_settled hsettled h

theorem fromWireItems_again (s : Session) (ws : List Wire) (element : Shape) {vs : List Native}
    (h : (s.fromWireItems ws element).result = .ok vs) :
    s.fromWireItems (Native.toWireItems vs) element = ⟨.ok vs, []⟩ :=
  match ws with
  | [] => by
    obtain rfl := Except.ok.inj h
    rfl
  | w :: rest => by
    obtain ⟨v, others, rfl, hv, hrest⟩ := fromWireItems_cons_eq_ok.1 h
    rw [Native.toWireItems, fromWireItems, fromWire_again s w element hv, fromWireItems_again s rest element hrest]
    rfl
end

/-- One conversion brings a value into a normal form: its wire form is converted to the value itself, without a
warning, by the same session and for the same shape. -/
theorem converted_value_normal (s : Session) (w : Wire) (shape : Shape) {v : Native}
    (h : (s.fromWire w shape).result = .ok v) : s.fromWire v.toWire shape = ⟨.ok v, []⟩ :=
  fromWire_again s w shape h

theorem converted_value_normal_repaired : ∃ s : Session, s.config.tokenPolicy = .lenient ∧
    (s.fromWire (.array [.text "nsiId=007", .null, .array [.text "x"]]) (.array (.capability "Node"))).result =
      .ok (.array [.ref (s.mint ⟨7⟩ "Node"), .null, .ref (s.mint .root "Node")]) ∧
    s.fromWire (Native.array [.ref (s.mint ⟨7⟩ "Node"), .null, .ref (s.mint .root "Node")]).toWire
      (.array (.capability "Node")) = ⟨.ok (.array [.ref (s.mint ⟨7⟩ "Node"), .null, .ref (s.mint .root "Node")]), []⟩ :=
  have hread : ((⟨0, { tokenPolicy := .lenient }, 1⟩ : Session).fromWire
      (.array [.text "nsiId=007", .null, .array [.text "x"]]) (.array (.capability "Node"))).result =
      .ok (.array [.ref ⟨0, ⟨7⟩, "Node", 1⟩, .null, .ref ⟨0, .root, "Node", 1⟩]) := rfl
  ⟨_, rfl, hread, converted_value_normal _ _ _ hread⟩

-- A number beyond the bound becomes the greatest integer, and the number nearest to that lies beyond the bound again.
example : (Double.ofInt (2 ^ 64)).toInt64 = Int64.maxValue ∧ Double.ofInt Int64.maxValue.toInt = Double.ofInt (2 ^ 63) := by
  decide +kernel

end Session
end ScriptBridge
