import ScriptBridge.Proofs.Enlisting
import ScriptBridge.Proofs.Ensuring

/-! Tables as they are reached. Whatever values are converted, and however conversion ends, a table stays in order and
keeps its slots; so does what pages do elsewhere. In every table that is reached conversion does what it is for. -/
namespace ScriptBridge.Script

variable {α β : Type} {h h' h'' h₀ : Heap} {m : Memory} {a b c f t : Address} {i n : Nat} {v w this : Value}
  {vs ws slots slots' : List Value} {met changed : Address → Prop}

/-- Objects from which no others are reached: the items of those that are arrays are among them, and none is a proxy. -/
structure Heap.Closed (h : Heap) (met : Address → Prop) : Prop where
  made : ∀ a, met a → a < h.objects.size
  proxy : ∀ a, met a → h.isProxy a = false
  items : ∀ a, met a → h.isArray a = true → ∃ vs, ListOf h a vs ∧ ∀ b, .object b ∈ vs → met b

theorem Bare.barren (hbare : Bare h) (hlibrary : Library h) : h.Barren Heap.arrayProto := by
  have hmade := hlibrary.arrayProto_made
  refine ⟨hmade, hlibrary.arrayProto.1, fun i => (hbare i).1, fun b hb => ?_⟩
  obtain rfl : Heap.objectProto = b := Option.some.inj (hlibrary.arrayProto.2.1.symm.trans hb)
  refine ⟨Nat.lt_trans (by decide) hmade, hlibrary.objectProto.1, fun i => (hbare i).2, fun b hb => ?_⟩
  rw [hlibrary.objectProto.2.1] at hb
  cases hb

/-- The items of a table are its slots. -/
theorem Orderly.listOf (horderly : Orderly m h slots) (ht : m.table = .object t) : ListOf h t slots := by
  have harray := horderly.arrayOf_table ht
  obtain ⟨t', ht', -, hproto, -⟩ := horderly.table
  obtain rfl : t' = t := Value.object.inj (ht'.symm.trans ht)
  refine ⟨⟨true, harray.kind⟩, harray.bound, fun i hi => ?_, fun b hb => ?_⟩
  · rw [harray.elements, List.getElem?_eq_getElem hi]
    rfl
  · obtain rfl := Option.some.inj (hproto.symm.trans hb)
    exact horderly.bare.barren horderly.foundations.library

theorem ListOf.length (hlist : ListOf h a vs) : h.length a = vs.length := by
  obtain ⟨w, hkind⟩ := hlist.kind
  rw [Heap.length, Heap.stored, Heap.storage_of_not_isProxy hlist.isProxy, hkind]

/-- Arrays do not get shorter. -/
theorem Heap.Intact.length_le (hintact : h.Intact changed h') (ha : a < h.objects.size) (hproxy : h.isProxy a = false) :
    h.length a ≤ h'.length a := by
  have hkept := hintact.kind a ha
  rw [length, length, stored, stored, storage_of_not_isProxy hproxy, storage_of_not_isProxy ((hintact.isProxy ha).trans hproxy)]
  generalize (h.object a).kind = k at hkept ⊢
  generalize (h'.object a).kind = k' at hkept ⊢
  cases hkept with
  | same => exact le_rfl
  | array hle => exact hle
  | map => exact le_rfl

/-- A table while values are converted: objects get slots that were there before, and those in the slots are met where the
table itself is. -/
structure Busy (m : Memory) (h₀ : Heap) (met : Address → Prop) (h : Heap) (slots : List Value) : Prop where
  orderly : Orderly m h slots
  first : ∃ slots₀, Orderly m h₀ slots₀
  intact : h₀.Intact (m.table = .object ·) h
  made : ∀ v ∈ slots.tail, ∃ a < h₀.objects.size, v = .object a
  met : ∀ t, m.table = .object t → met t → ∀ a, .object a ∈ slots → met a

namespace Busy

theorem start (hclosed : h.Closed met) (horderly : Orderly m h slots) : Busy m h met h slots where
  orderly := horderly
  first := ⟨slots, horderly⟩
  intact := .refl _ h
  made := horderly.made
  met t ht hmet a ha := by
    have hlist := horderly.listOf ht
    obtain ⟨vs, hlist', hitems⟩ := hclosed.items t hmet hlist.isArray
    exact hitems a (hlist'.unique hlist ▸ ha)

/-- Heaps may change in other objects than those that were there. -/
theorem step (hbusy : Busy m h₀ met h slots) (horderly : Orderly m h' slots)
    (hintact : h.Intact (fun b => m.table = .object b ∨ h₀.objects.size ≤ b) h') : Busy m h₀ met h' slots where
  orderly := horderly
  first := hbusy.first
  intact := hbusy.intact.trans hintact fun _ hb hchanged => hchanged.resolve_right (Nat.not_le_of_lt hb)
  made := hbusy.made
  met := hbusy.met

theorem enlist (hclosed : h₀.Closed met) (ha : met a) (hbusy : Busy m h₀ met h slots)
    (horderly : Orderly m h' (enlist slots a)) (hintact : h.Intact (m.table = .object ·) h') :
    Busy m h₀ met h' (enlist slots a) := by
  refine ⟨horderly, hbusy.first, hbusy.intact.trans hintact fun _ _ => id, fun v hv => ?_, fun t ht hmet b hb => ?_⟩
  · rw [Script.enlist] at hv
    split at hv
    · exact hbusy.made v hv
    · rw [List.tail_append_of_ne_nil hbusy.orderly.rooted] at hv
      rcases List.mem_append.1 hv with hv | hv
      · exact hbusy.made v hv
      · exact ⟨a, hclosed.made a ha, List.mem_singleton.1 hv⟩
  · rw [Script.enlist] at hb
    split at hb
    · exact hbusy.met t ht hmet b hb
    · rcases List.mem_append.1 hb with hb | hb
      · exact hbusy.met t ht hmet b hb
      · exact Value.object.inj (List.mem_singleton.1 hb) ▸ ha

/-- The items of the arrays that are met are met as well. -/
theorem items (hclosed : h₀.Closed met) (ha : met a) (harray : h₀.isArray a = true) (hbusy : Busy m h₀ met h slots) :
    ∃ vs, ListOf h a vs ∧ ∀ b, .object b ∈ vs → met b := by
  by_cases htable : m.table = .object a
  · exact ⟨slots, hbusy.orderly.listOf htable, hbusy.met a htable ha⟩
  · obtain ⟨vs, hlist, hitems⟩ := hclosed.items a ha harray
    obtain ⟨slots₀, hfirst⟩ := hbusy.first
    exact ⟨vs, hlist.intact hbusy.intact (fun _ hb => hfirst.table_not_barren hb) htable, hitems⟩

end Busy

/-- Whatever comes of a run, the table is in order after it, with the slots that it had and perhaps more. -/
def Run.Proceeds (m : Memory) (h₀ : Heap) (met changed : Address → Prop) (r : Run α) (h : Heap) (slots : List Value) : Prop :=
  ∃ slots', slots <+: slots' ∧ Busy m h₀ met (outcome r h).2 slots' ∧ h.Intact changed (outcome r h).2

namespace Run.Proceeds

variable {r : Run α} {g : α → Run β}

theorem of_eq {r' : Run α} (hr : outcome r h = outcome r' h) (hproceeds : Proceeds m h₀ met changed r' h slots) :
    Proceeds m h₀ met changed r h slots := by
  rwa [Proceeds, hr]

/-- A run that changes nothing. -/
theorem of_same {x : Except Thrown α} (hr : outcome r h = (x, h)) (hbusy : Busy m h₀ met h slots) :
    Proceeds m h₀ met changed r h slots := by
  refine ⟨slots, List.prefix_rfl, ?_, ?_⟩ <;> rw [hr]
  · exact hbusy
  · exact .refl changed h

theorem bind {changed' : Address → Prop} (hproceeds : Proceeds m h₀ met changed' r h slots)
    (hsub : ∀ b < h.objects.size, changed' b → changed b)
    (hrest : ∀ x h' slots', outcome r h = (.ok x, h') → Busy m h₀ met h' slots' → h.Intact changed' h' →
      Proceeds m h₀ met changed (g x) h' slots') : Proceeds m h₀ met changed (r >>= g) h slots := by
  obtain ⟨slots', hlonger, hbusy, hintact⟩ := hproceeds
  rcases hr : outcome r h with ⟨e | x, h'⟩ <;> rw [hr] at hbusy hintact
  · rw [Proceeds, outcome_bind_error hr]
    exact ⟨slots', hlonger, hbusy, hintact.mono hsub⟩
  · obtain ⟨slots'', hlonger', hbusy', hintact'⟩ := hrest x h' slots' hr hbusy hintact
    rw [Proceeds, outcome_bind_ok hr]
    exact ⟨slots'', hlonger.trans hlonger', hbusy', (hintact.mono hsub).trans hintact' fun _ _ => id⟩

end Run.Proceeds

theorem Object.define_element {o : Object} {w : Bool} (hkind : o.kind = .array n w) (i : Nat) (d : Descriptor) :
    (∃ k ≥ n, k ≤ max n (i + 1) ∧ (o.define (.index i) d).2.kind = .array k w) ∧
      (o.define (.index i) d).2.proto = o.proto ∧ (o.define (.index i) d).2.names = o.names := by
  have hsame : ∃ k ≥ n, k ≤ max n (i + 1) ∧ o.kind = .array k w := ⟨n, le_rfl, le_max_left _ _, hkind⟩
  unfold define
  split
  · split <;> exact ⟨hsame, rfl, rfl⟩
  · split
    · exact ⟨hsame, rfl, rfl⟩
    · rw [hkind]
      dsimp only
      split
      · exact ⟨hsame, rfl, rfl⟩
      · rename_i hlength
        split
        · exact ⟨⟨i + 1, (Nat.le_of_not_lt hlength).trans (Nat.le_succ i), le_max_right _ _, rfl⟩, rfl, rfl⟩
        · exact ⟨hsame, rfl, rfl⟩

namespace Heap.Refilled

theorem refl {w : Bool} (hkind : (h.object c).kind = .array n w) : Refilled c h h :=
  ⟨rfl, fun _ _ => rfl, ⟨n, n, w, le_rfl, hkind, hkind⟩, rfl, rfl⟩

theorem define {w : Bool} (hkind : (h.object c).kind = .array n w) (i : Nat) (d : Descriptor) :
    Refilled c h (h.define c (.index i) d).2 ∧
      ∃ k ≤ max n (i + 1), ((h.define c (.index i) d).2.object c).kind = .array k w := by
  obtain ⟨⟨k, hk, hbound, hkind'⟩, hproto, hnames⟩ := Object.define_element hkind i d
  have hmade := lt_size_of_array hkind
  rw [define_index hkind]
  have hself := object_setObject_self ((h.object c).define (.index i) d).2 hmade
  refine ⟨⟨size_setObject _ _ _, fun b hb => object_setObject_of_ne _ hb, ⟨n, k, w, hk, hkind, ?_⟩, ?_, ?_⟩,
    k, hbound, ?_⟩
  · rw [hself, hkind']
  · rw [hself, hproto]
  · rw [hself, hnames]
  · rw [hself, hkind']

end Heap.Refilled

/-- An item that is stored in an array changes only the array, and makes it longer by what is needed at most. -/
theorem Run.refilled_store {w : Bool} (hkind : (h.object c).kind = .array n w) (invoke : Caller) (i : Nat) (v : Value) :
    Heap.Refilled c h (outcome (store invoke (.object c) (.index i) v) h).2 ∧
      ∃ k ≤ max n (i + 1), ((outcome (store invoke (.object c) (.index i) v) h).2.object c).kind = .array k w := by
  rw [store, outcome_bind_ok (outcome_get h), if_neg (by simp [Key.length])]
  rcases heap_assign (a := c) (k := .index i) (v := v) (fun hproto => absurd hproto (by simp [Key.proto])) h with hsame | ⟨d, -, hdefine⟩
  · rw [hsame]
    exact ⟨.refl hkind, n, le_max_left _ _, hkind⟩
  · rw [hdefine]
    exact Heap.Refilled.define hkind i d

namespace Converter

open Run (Proceeds Within)

variable {invoke : Caller}

private theorem proceeds_token (hinvoke : Within 2 invoke) (hclosed : h₀.Closed met)
    (hroom : h₀.objects.size + 1 < Key.indexBound) (ha : met a) (harray : h₀.isArray a = false)
    (hbusy : Busy m h₀ met h slots) : Proceeds m h₀ met (m.table = .object ·) (token invoke m (.object a)) h slots := by
  have hmade := hclosed.made a ha
  have hplain : h.Plain a := hbusy.intact.plain ⟨hmade, hclosed.proxy a ha, harray⟩
  have hlength := hbusy.orderly.length_enlist_lt hbusy.made hroom a
  obtain ⟨n, h', hrun, -, horderly, hintact⟩ := outcome_token_enlist hinvoke hbusy.orderly hplain hlength
  refine ⟨enlist slots a, prefix_enlist slots a, ?_, ?_⟩ <;> rw [hrun]
  · exact hbusy.enlist hclosed ha horderly hintact
  · exact hintact

mutual
/-- However the conversion of a value ends, the table keeps its slots. -/
theorem proceeds_convert (hinvoke : Within 2 invoke) (hclosed : h₀.Closed met)
    (hroom : h₀.objects.size + 1 < Key.indexBound) : (fuel : Nat) → {h : Heap} → {slots : List Value} → {v : Value} →
    Busy m h₀ met h slots → (∀ a, v = .object a → met a) →
    Proceeds m h₀ met (m.table = .object ·) (convert invoke m fuel v) h slots
  | 0, h, slots, v, hbusy, _ => .of_same rfl hbusy
  | fuel + 1, h, slots, v, hbusy, hmet => by
    have hlibrary := hbusy.orderly.foundations.library
    by_cases hobject : ∃ a, v = .object a
    · obtain ⟨a, rfl⟩ := hobject
      have ha := hmet a rfl
      have hmade := hclosed.made a ha
      have harray : h.isArray a = h₀.isArray a := hbusy.intact.isArray hmade (hclosed.proxy a ha)
      cases hkind : h₀.isArray a with
      | false =>
        rw [hkind] at harray
        exact .of_eq (outcome_convert_object (hinvoke.mono (by decide)) hlibrary harray fuel)
          (proceeds_token hinvoke hclosed hroom ha hkind hbusy)
      | true =>
        rw [hkind] at harray
        obtain ⟨vs, hlist, -⟩ := hbusy.items hclosed ha hkind
        let o : Object := { kind := .array vs.length true, proto := some Heap.arrayProto }
        have hgrown : h.Grown (h.alloc o).1 := .alloc h o
        have hself : (h.alloc o).1.object h.objects.size = o := Heap.object_alloc_self h o
        have hbusy' : Busy m h₀ met (h.alloc o).1 slots :=
          hbusy.step (hbusy.orderly.undisturbed (hbusy.orderly.undisturbed_of_alloc vs.length)) (.of_grown _ hgrown)
        rw [Proceeds, outcome_convert_array (hinvoke.mono (by decide)) hlibrary harray hlist.get_length hlist.bound fuel]
        obtain ⟨slots', hlonger, hbusy'', hintact⟩ := (proceeds_convertFrom hinvoke hclosed hroom fuel (i := 0) hbusy' ha hkind
          (hbusy.intact.size) ⟨_, _, by rw [hself]⟩ (by rw [hself]) (Nat.zero_le _)).bind (fun _ _ => id)
          fun _ h' slots' _ hbusy' _ => .of_same (outcome_pure (Value.object h.objects.size) h') hbusy'
        refine ⟨slots', hlonger, hbusy'', (Heap.Intact.of_grown _ hgrown).trans hintact fun b hb hchanged => ?_⟩
        exact hchanged.resolve_right hb.ne
    · have hobject (a : Address) : v ≠ .object a := fun heq => hobject ⟨a, heq⟩
      cases hnullish : v.isNullish with
      | true =>
        refine .of_same (x := .ok .null) ?_ hbusy
        rw [convert, if_pos hnullish, outcome_pure]
        exact hobject
      | false => exact .of_same (outcome_convert_kept (hinvoke.mono (by decide)) hlibrary hnullish hobject fuel) hbusy

/-- So it does however the conversion of the items of an array ends. -/
theorem proceeds_convertFrom (hinvoke : Within 2 invoke) (hclosed : h₀.Closed met)
    (hroom : h₀.objects.size + 1 < Key.indexBound) : (fuel : Nat) → {h : Heap} → {slots : List Value} → {a c : Address} →
    {i : Nat} → Busy m h₀ met h slots → met a → h₀.isArray a = true → h₀.objects.size ≤ c →
    (∃ n w, (h.object c).kind = .array n w) → (h.object c).proto = some Heap.arrayProto → i ≤ h.length a →
    Proceeds m h₀ met (fun b => m.table = .object b ∨ b = c) (convertFrom invoke m (.object a) (.object c) fuel i) h slots
  | 0, h, slots, a, c, i, hbusy, _, _, _, _, _, _ => .of_same rfl hbusy
  | fuel + 1, h, slots, a, c, i, hbusy, ha, harray, hc, hkind, hproto, hi => by
    obtain ⟨vs, hlist, hitems⟩ := hbusy.items hclosed ha harray
    rw [hlist.length] at hi
    refine .of_eq (outcome_convertFrom_below hlist.get_length hlist.bound hi invoke fuel c) ?_
    by_cases hbelow : i < vs.length
    · obtain ⟨slots₀, hfirst⟩ := hbusy.first
      obtain ⟨n, w, hkind⟩ := hkind
      have hitem : h.get a (.ofNat i) = vs[i] := hlist.get_item hbelow
      have hkey : Key.ofNat i = .index i := if_pos (Nat.lt_of_lt_of_le hbelow (Nat.le_sub_one_of_lt hlist.bound))
      rw [if_pos hbelow, hitem, hkey]
      have hconvert := proceeds_convert hinvoke hclosed hroom fuel hbusy fun b hb => hitems b (hb ▸ List.getElem_mem hbelow)
      refine hconvert.bind (fun _ _ => .inl) fun item h₁ slots₁ hrun hbusy₁ hintact₁ => ?_
      -- The array that is being filled is younger than the table, and is no array that is converted.
      have htable : m.table ≠ .object c := fun ht => Nat.not_lt_of_le hc (hfirst.table_made ht)
      have hmade : c < h.objects.size := Heap.lt_size_of_array hkind
      have hkept := hintact₁.kind c hmade
      rw [hkind] at hkept
      obtain ⟨n₁, -, hkind₁⟩ := hkept.of_array
      have hproto₁ : (h₁.object c).proto = some Heap.arrayProto := (hintact₁.inherits c hmade htable).2.trans hproto
      have hrefilled := (Run.refilled_store hkind₁ invoke i item).1
      have hstore : Proceeds m h₀ met (· = c) (Run.store invoke (.object c) (.index i) item) h₁ slots₁ :=
        ⟨slots₁, List.prefix_rfl, hbusy₁.step
          (hbusy₁.orderly.undisturbed (hbusy₁.orderly.undisturbed_of_refilled hproto₁ htable hrefilled))
          (hrefilled.intact.mono fun b _ (hb : b = c) => .inr (hb ▸ hc)), hrefilled.intact⟩
      refine hstore.bind (fun _ _ => .inr) fun _ h₂ slots₂ hrun₂ hbusy₂ hintact₂ => ?_
      rw [hrun₂] at hrefilled
      obtain ⟨k, k', w', -, -, hkind₂⟩ := hrefilled.kind
      refine proceeds_convertFrom hinvoke hclosed hroom fuel hbusy₂ ha harray hc ⟨k', w', hkind₂⟩
        (hrefilled.proto.trans hproto₁) ?_
      have hproxy := hlist.isProxy
      calc i + 1 ≤ h.length a := by rw [hlist.length]; exact hbelow
        _ ≤ h₁.length a := hintact₁.length_le hlist.made hproxy
        _ ≤ h₂.length a := hintact₂.length_le (hlist.made.trans_le hintact₁.size) ((hintact₁.isProxy hlist.made).trans hproxy)
    · rw [if_neg hbelow]
      exact .of_same (outcome_pure () h) hbusy
end

end Converter

/-- A heap in which tables can be made and be in order: the language's own objects are in place, arrays inherit nothing
under an index, and there are no tags but handles. -/
structure Heap.Prepared (h : Heap) (tag : String) : Prop where
  foundations : Foundations h
  bare : Bare h
  tags : ∀ a p, h.own? a (.ofText tag) = some p → NamesSlot p.value

open Embedded (engine)

/-- A table is reached: it is made by a script that installs one, pages run that do not touch it, and its converter is
called with values of any kind but proxies. -/
inductive Memory.Reached (m : Memory) : Heap → Prop
  | installed {c : Config} {h : Heap} {f : Address} (distinct : c.Distinct) (prepared : h.Prepared c.tagProperty)
      (ok : (engine.execute (Bootstrap.install c) h).result = .ok ())
      (named : (engine.execute (Bootstrap.install c) h).state.Holds Heap.global (.ofText c.converterName) (.object f))
      (code : (engine.execute (Bootstrap.install c) h).state.code? f = some (.tool .convert m)) :
      m.Reached (engine.execute (Bootstrap.install c) h).state
  | undisturbed {h h' : Heap} (reached : m.Reached h) (undisturbed : m.Undisturbed h h') : m.Reached h'
  | converted {h : Heap} {met : Address → Prop} {f : Address} {args : List Value} (reached : m.Reached h)
      (code : h.code? f = some (.tool .convert m)) (closed : h.Closed met)
      (given : ∀ a, args.headD .undefined = .object a → met a) (room : h.objects.size + 1 < Key.indexBound) (this : Value) :
      m.Reached (outcome (Run.invoke (.object f) this args) h).2

/-- A script that succeeds has installed the table of the converter that stands under its name. -/
theorem Installation.finished_of_execute {c : Config} (hclear : c.Clear) (hfoundations : Foundations h)
    (hok : (engine.execute (Bootstrap.install c) h).result = .ok ())
    (hnamed : (engine.execute (Bootstrap.install c) h).state.Holds Heap.global (.ofText c.converterName) (.object f))
    (hcode : (engine.execute (Bootstrap.install c) h).state.code? f = some (.tool .convert m)) :
    ∃ e root, Installation.Finished (.of c e) m root h (engine.execute (Bootstrap.install c) h).state := by
  obtain ⟨e, -, m', root, hfinished⟩ := Embedded.execute_install_ok hclear hfoundations hok
  obtain ⟨f', hnamed', hcode'⟩ := (hfinished.placed (hclear.named e) hfoundations).converter
  obtain rfl : f' = f := Value.object.inj (hnamed'.unique hnamed)
  obtain rfl : m' = m := (Code.tool.inj (Option.some.inj (hcode'.symm.trans hcode))).2
  exact ⟨e, root, hfinished⟩

/-- The values in the slots of a table. -/
def Memory.held (m : Memory) (h : Heap) : List Value :=
  match m.table with
  | .object t => Embedded.items h t
  | _ => []

theorem Slotted.held_eq (hslotted : Slotted m h slots) : m.held h = slots := by
  obtain ⟨t, ht, harray, -⟩ := hslotted.table
  rw [Memory.held, ht]
  exact harray.items

/-- A call of the converter converts the value that is given. -/
theorem Converter.outcome_invoke (hcode : h.code? f = some (.tool .convert m)) (this : Value) (args : List Value) :
    ∃ inner, Run.Within 2 inner ∧ outcome (Run.invoke (.object f) this args) h =
      outcome (convert inner m (fuelFor h) (args.headD .undefined)) h := by
  obtain ⟨inner, hinner, hrun⟩ := Run.within_invoke.code hcode this args
  exact ⟨inner, hinner.mono (by decide), hrun.trans (outcome_bind_ok (outcome_get h))⟩

namespace Memory.Reached

/-- A table that is reached is in order. -/
theorem orderly (hreached : m.Reached h) : m.scheme = String.ofList Handle.scheme ∧ ∃ slots, Orderly m h slots := by
  induction hreached with
  | installed hdistinct hprepared hok hnamed hcode =>
    obtain ⟨e, root, hfinished⟩ := Installation.finished_of_execute hdistinct.toClear hprepared.foundations hok hnamed hcode
    exact ⟨(hfinished.placed (hdistinct.named e) hprepared.foundations).scheme, [root],
      hfinished.orderly (hdistinct.named e) hprepared.foundations hprepared.bare hprepared.tags hdistinct.unused
        hdistinct.tagTable hdistinct.tagConverter⟩
  | undisturbed _ hundisturbed ih =>
    obtain ⟨hscheme, slots, horderly⟩ := ih
    exact ⟨hscheme, slots, horderly.undisturbed hundisturbed⟩
  | @converted h met f args _ hcode hclosed hgiven hroom this ih =>
    obtain ⟨hscheme, slots, horderly⟩ := ih
    obtain ⟨inner, hinner, hrun⟩ := Converter.outcome_invoke hcode this args
    obtain ⟨slots', -, hbusy, -⟩ :=
      Converter.proceeds_convert hinner hclosed hroom (Converter.fuelFor h) (.start hclosed horderly) hgiven
    rw [hrun]
    exact ⟨hscheme, slots', hbusy.orderly⟩

/-- Whatever is converted, the slots that a table has stay as they are, and those that come are behind them. -/
theorem held_prefix {args : List Value} (hreached : m.Reached h) (hcode : h.code? f = some (.tool .convert m))
    (hclosed : h.Closed met) (hgiven : ∀ a, args.headD .undefined = .object a → met a)
    (hroom : h.objects.size + 1 < Key.indexBound) (this : Value) :
    m.held h <+: m.held (outcome (Run.invoke (.object f) this args) h).2 := by
  obtain ⟨-, slots, horderly⟩ := hreached.orderly
  obtain ⟨inner, hinner, hrun⟩ := Converter.outcome_invoke hcode this args
  obtain ⟨slots', hlonger, hbusy, -⟩ :=
    Converter.proceeds_convert hinner hclosed hroom (Converter.fuelFor h) (.start hclosed horderly) hgiven
  rw [hrun, horderly.held_eq, hbusy.orderly.held_eq]
  exact hlonger

end Memory.Reached

end ScriptBridge.Script
