import ScriptBridge.Proofs.Evaluating

/-! Conversion of values that lie in a heap: the converter makes the arrays anew, item by item, and puts tokens in
the place of registered objects. No object that was there is changed. -/
namespace ScriptBridge.Script

variable {h h' h'' : Heap} {m : Memory} {a c : Address} {i n : Nat} {v w : Value} {ws : List Value}

namespace Heap

/-- No property under an index that is found from an object on forbids to assign it. -/
def IndicesWritable (h : Heap) (i : Nat) (b : Address) : Prop :=
  ∀ n p, h.findWithin (.index i) n b = some p → p.writable = true

private theorem indicesWritable_of_inherited {b : Address} (hproxy : h.isProxy b = false)
    (helements : ∀ p, (h.object b).elements[i]? = some p → p.writable = true)
    (hinherited : ∀ b', (h.object b).proto = some b' → h.IndicesWritable i b') : h.IndicesWritable i b := by
  intro n p hp
  cases n with
  | zero => cases hp
  | succ n =>
    rw [findWithin, own?_index hproxy, stored, storage_of_not_isProxy hproxy] at hp
    cases helement : (h.object b).elements[i]? with
    | some q =>
      obtain rfl : q = p := by simpa [helement] using hp
      exact helements q helement
    | none =>
      cases hproto : (h.object b).proto with
      | none => simp [helement, hproto] at hp
      | some b' => exact hinherited b' hproto n p (by simpa [helement, hproto] using hp)

/-- What arrays inherit under an index does not forbid to assign it. -/
theorem indicesWritable_array (hlibrary : Library h) (hproxy : h.isProxy c = false)
    (hproto : (h.object c).proto = some arrayProto) (hnone : (h.object c).elements[i]? = none) :
    h.IndicesWritable i c := by
  obtain ⟨hproxy₁, hproto₁, helements₁⟩ := hlibrary.objectProto
  obtain ⟨hproxy₂, hproto₂, helements₂⟩ := hlibrary.arrayProto
  have hobject : h.IndicesWritable i objectProto :=
    indicesWritable_of_inherited hproxy₁ (helements₁ i) (by simp [hproto₁])
  have harray : h.IndicesWritable i arrayProto :=
    indicesWritable_of_inherited hproxy₂ (helements₂ i) (by simpa [hproto₂] using hobject)
  exact indicesWritable_of_inherited hproxy (by simp [hnone]) (by simpa [hproto] using harray)

end Heap

/-- An array of a length that is being filled from its start. -/
def Filling (h : Heap) (c : Address) (n : Nat) (ws : List Value) : Prop :=
  c < h.objects.size ∧ ∃ elements, h.object c = { kind := .array n true, proto := some Heap.arrayProto, elements } ∧
    Fills elements ws

theorem Filling.of_grown (hgrown : h.Grown h') (hfilling : Filling h c n ws) : Filling h' c n ws := by
  obtain ⟨hc, elements, hobject, hfills⟩ := hfilling
  exact ⟨hc.trans_le hgrown.size, elements, (hgrown.object c hc).trans hobject, hfills⟩

theorem Filling.arrayOf (hfilling : Filling h c n ws) (hlength : ws.length = n) (hn : n < 2 ^ 32) : ArrayOf h c ws := by
  obtain ⟨-, elements, hobject, hfills⟩ := hfilling
  exact ⟨by rw [hobject, hlength], by rw [hobject]; exact hfills, hlength ▸ hn⟩

/-- Two heaps that have the same objects but for one, as far as the first one goes. -/
structure Heap.Apart (c : Address) (h h' : Heap) : Prop where
  size : h.objects.size ≤ h'.objects.size
  object : ∀ b < h.objects.size, b ≠ c → h'.object b = h.object b

namespace Heap.Apart

theorem of_grown (hgrown : h.Grown h') (c : Address) : Apart c h h' := ⟨hgrown.size, fun b hb _ => hgrown.object b hb⟩

theorem setObject (h : Heap) (c : Address) (o : Object) : Apart c h (h.setObject c o) :=
  ⟨by simp, fun _ _ hb => object_setObject_of_ne o hb⟩

theorem trans (happart : Apart c h h') (happart' : Apart c h' h'') : Apart c h h'' :=
  ⟨happart.size.trans happart'.size, fun b hb hne =>
    (happart'.object b (hb.trans_le happart.size) hne).trans (happart.object b hb hne)⟩

theorem grown (hgrown : h.Grown h') (hc : h.objects.size ≤ c) (happart : Apart c h' h'') : h.Grown h'' :=
  ⟨hgrown.size.trans happart.size, fun b hb =>
    (happart.object b (hb.trans_le hgrown.size) (hb.trans_le hc).ne).trans (hgrown.object b hb)⟩

end Heap.Apart

namespace Run

private theorem define_item {elements : Std.TreeMap Nat Property} (hnone : elements[i]? = none) (hi : i < n) (p : Property) :
    ({ kind := .array n true, proto := some Heap.arrayProto, elements } : Object).define (.index i) (.ofProperty p) =
      (.accepted, { kind := .array n true, proto := some Heap.arrayProto, elements := elements.insert i p }) := by
  have hprop : ({ kind := .array n true, proto := some Heap.arrayProto, elements } : Object).property? (.index i) = none :=
    hnone
  unfold Object.define
  rw [hprop]
  exact if_pos hi

/-- An item is put into the array that is being filled. -/
theorem outcome_store (hlibrary : Library h) (hfilling : Filling h c n ws) (hlength : ws.length < n) (hn : n < 2 ^ 32)
    (invoke : Caller) (v : Value) : ∃ h', outcome (store invoke (.object c) (.ofNat ws.length) v) h = (.ok (), h') ∧
      h'.objects.size = h.objects.size ∧ Heap.Apart c h h' ∧ Filling h' c n (ws ++ [v]) := by
  obtain ⟨hc, elements, hobject, hfills⟩ := hfilling
  have hkey : Key.ofNat ws.length = .index ws.length := if_pos (Nat.lt_of_lt_of_le hlength (Nat.le_sub_one_of_lt hn))
  have hproxy : h.isProxy c = false := by rw [Heap.isProxy, hobject]
  have hnone : elements[ws.length]? = none := by rw [hfills, List.getElem?_eq_none (Nat.le_refl _)]; rfl
  have hown : h.own? c (.index ws.length) = none := by rw [Heap.own?_index hproxy, hobject]; exact hnone
  let o : Object :=
    { kind := .array n true, proto := some Heap.arrayProto, elements := elements.insert ws.length (.plain v) }
  have hkind : (h.object c).kind = .array n true := by rw [hobject]
  refine ⟨h.setObject c o, ?_, by simp, .setObject h c o, by simpa using hc, _,
    Heap.object_setObject_self o hc, hfills.insert v⟩
  have hassign : outcome (assignOwn c (.index ws.length) v) h = (.ok (), h.setObject c o) := by
    have hrun : outcome (Run.define c (.index ws.length) (.ofProperty (.plain v))) h = (.ok .accepted, h.setObject c o) := by
      rw [outcome_define, Heap.define_index hkind, hobject, define_item hnone hlength]
    rw [assignOwn, outcome_bind_ok (outcome_get h), hown]
    exact (outcome_bind_ok hrun).trans rfl
  have hplain : outcome (assign (.object c) (.index ws.length) v) h = (.ok (), h.setObject c o) := by
    rw [assign, outcome_bind_ok (outcome_get h)]
    cases hfind : h.find? c (.index ws.length) with
    | some p =>
      have hwritable : p.writable = true :=
        Heap.indicesWritable_array hlibrary hproxy (by rw [hobject]) (by rw [hobject]; exact hnone) _ p hfind
      change outcome (if p.writable then assignOwn c (.index ws.length) v else failReadOnly (.index ws.length)) h = _
      rw [hwritable, if_pos rfl, hassign]
    | none =>
      change outcome (if Key.index ws.length = .proto && h.reaches c Heap.objectProto then assignProto c v
        else assignOwn c (.index ws.length) v) h = _
      rw [if_neg (by simp [Key.proto]), hassign]
  rw [hkey, store, outcome_bind_ok (outcome_get h), if_neg (by simp [Key.length]), hplain]

private theorem construct_array (invoke : Caller) (args : List Value) :
    Builtin.array.construct invoke args = Builtin.array.run invoke .undefined args := rfl

private theorem run_array (invoke : Caller) (this : Value) (x : Number) :
    Builtin.array.run invoke this [.number x] = match x.length? with
      | some n => allocElements n ∅
      | none => fail "invalid array length" := rfl

theorem outcome_construct_array {f : Address} (hcode : h.code? f = some (.builtin .array)) (hn : n < 2 ^ 32)
    (invoke : Caller) : outcome (construct invoke (.object f) [.nat n]) h =
      (.ok (.object h.objects.size), (h.alloc { kind := .array n true, proto := some Heap.arrayProto }).1) := by
  have hcodeOf : h.codeOf? (.object f) = some (.builtin .array) := hcode
  rw [construct, outcome_bind_ok (outcome_get h), hcodeOf]
  dsimp only
  rw [if_pos (show (Code.builtin .array).constructs = true from rfl), construct_array, Value.nat, run_array, Number.length?_ofNat hn]
  rfl

end Run

namespace Converter

open Run (callWithin within_callWithin Within)

/-- Values that are no objects are left as they are. -/
theorem outcome_convert_kept {invoke : Caller} (hinvoke : Within 1 invoke) (hlibrary : Library h) (hv : v.isNullish = false)
    (hobject : ∀ a, v ≠ .object a) (fuel : Nat) : outcome (convert invoke m (fuel + 1) v) h = (.ok v, h) := by
  have harray := outcome_isArray hinvoke hlibrary v
  have hfalse : h.isArrayValue v = false := by
    cases v with
    | object a => exact absurd rfl (hobject a)
    | _ => rfl
  rw [hfalse] at harray
  rw [convert, hv, if_neg Bool.false_ne_true, outcome_bind_ok harray, if_neg Bool.false_ne_true, outcome_pure]
  exact hobject

/-- An object that is no array gets its token. -/
theorem outcome_convert_object {invoke : Caller} (hinvoke : Within 1 invoke) (hlibrary : Library h) (ha : h.isArray a = false) (fuel : Nat) :
    outcome (convert invoke m (fuel + 1) (.object a)) h = outcome (token invoke m (.object a)) h := by
  have harray := outcome_isArray hinvoke hlibrary (.object a)
  rw [show h.isArrayValue (.object a) = false from ha] at harray
  have hnullish : (Value.object a).isNullish = false := rfl
  rw [convert, hnullish, if_neg Bool.false_ne_true, outcome_bind_ok harray, if_neg Bool.false_ne_true]

/-- An array is converted item by item into a new one of its length. -/
theorem outcome_convert_array {invoke : Caller} (hinvoke : Within 1 invoke) (hlibrary : Library h) (ha : h.isArray a = true)
    (hlength : h.get a .length = .nat n) (hn : n < 2 ^ 32) (fuel : Nat) :
    outcome (convert invoke m (fuel + 1) (.object a)) h =
      outcome (do
        convertFrom invoke m (.object a) (.object h.objects.size) fuel 0
        return .object h.objects.size) (h.alloc { kind := .array n true, proto := some Heap.arrayProto }).1 := by
  obtain ⟨f, hf, hcode, -⟩ := hlibrary.array
  have hisArray := outcome_isArray hinvoke hlibrary (.object a)
  rw [show h.isArrayValue (.object a) = true from ha] at hisArray
  have hnullish : (Value.object a).isNullish = false := rfl
  have hread : outcome (Run.read (.object a) .length) h = (.ok (.nat n), h) := by
    rw [Run.outcome_read_object, hlength]
  rw [convert, hnullish, if_neg Bool.false_ne_true, outcome_bind_ok hisArray, if_pos rfl,
    outcome_bind_ok (Run.outcome_global hf), outcome_bind_ok hread,
    outcome_bind_ok (Run.outcome_construct_array hcode hn _)]

/-- An item is converted where the array is not at its end. -/
theorem outcome_convertFrom_below (hlength : h.get a .length = .nat n) (hn : n < 2 ^ 32) (hi : i ≤ n) (invoke : Caller)
    (fuel : Nat) (c : Address) :
    outcome (convertFrom invoke m (.object a) (.object c) (fuel + 1) i) h =
      outcome (if i < n then do
        let item ← convert invoke m fuel (h.get a (.ofNat i))
        Run.store invoke (.object c) (.ofNat i) item
        convertFrom invoke m (.object a) (.object c) fuel (i + 1)
      else pure ()) h := by
  have hread : outcome (Run.read (.object a) .length) h = (.ok (.nat n), h) := by
    rw [Run.outcome_read_object, hlength]
  have hbelow : outcome (Run.below invoke i (.nat n)) h = (.ok (decide (i < n)), h) := by
    rw [Value.nat, Run.below, outcome_pure, Number.less_ofNat (by omega) (by omega)]
  rw [convertFrom, outcome_bind_ok hread, outcome_bind_ok hbelow]
  by_cases h : i < n
  · rw [decide_eq_true h, if_pos rfl, if_pos h, outcome_bind_ok (Run.outcome_read_object a _ _)]
  · rw [decide_eq_false h, if_neg Bool.false_ne_true, if_neg h]

/-- What the conversion of a value makes: new arrays that hold the wire value, deep in the heap as they are nested. -/
structure Converts (h h' : Heap) (w : Wire) (v : Value) : Prop where
  grown : h.Grown h'
  deep : h.objects.size + w.nesting ≤ h'.objects.size
  lies : Lies h' (fun a => h.objects.size ≤ a ∧ a < h'.objects.size) (fun _ _ => False) w v

mutual
theorem outcome_convert (depth : Nat) : (w : Wire) → {h : Heap} → {v : Value} → {fuel : Nat} → Library h → m.Works h →
    Lies h (· < h.objects.size) (m.Names h) w v → w.cost < fuel → ∃ v' h',
      outcome (convert (callWithin (depth + 2)) m fuel v) h = (.ok v', h') ∧ Converts h h' w v'
  | w, h, v, 0, _, _, _, hfuel => absurd hfuel (Nat.not_lt_zero _)
  | .null, h, v, fuel + 1, _, _, hv, _ => by
    rw [Lies] at hv
    subst hv
    refine ⟨.null, h, ?_, .refl h, Nat.le_refl _, rfl⟩
    rw [convert, if_pos (show Value.null.isNullish = true from rfl), outcome_pure]
    exact fun _ => by simp
  | .bool b, h, v, fuel + 1, hlibrary, _, hv, _ => by
    rw [Lies] at hv
    subst hv
    have hkept := outcome_convert_kept (m := m) (v := .bool b) ((within_callWithin (depth + 2)).mono (by omega)) hlibrary rfl
      (fun _ => by simp) fuel
    exact ⟨_, h, hkept, .refl h, Nat.le_refl _, rfl⟩
  | .number x, h, v, fuel + 1, hlibrary, _, hv, _ => by
    rw [Lies] at hv
    obtain ⟨n, rfl, hn⟩ := hv
    have hkept := outcome_convert_kept (m := m) (v := .number n) ((within_callWithin (depth + 2)).mono (by omega)) hlibrary rfl
      (fun _ => by simp) fuel
    exact ⟨_, h, hkept, .refl h, Nat.le_refl _, n, rfl, hn⟩
  | .text s, h, v, fuel + 1, hlibrary, hworks, hv, _ => by
    rw [Lies] at hv
    have hinvoke := within_callWithin (depth + 2)
    obtain rfl | ⟨a, rfl, n, hregistered, rfl⟩ := hv
    · have hkept := outcome_convert_kept (m := m) (v := .text s) (hinvoke.mono (by omega)) hlibrary rfl
        (fun _ => by simp [Value.text]) fuel
      exact ⟨_, h, hkept, .refl h, Nat.le_refl _, .inl rfl⟩
    · refine ⟨_, h, ?_, .refl h, Nat.le_refl _, .inl rfl⟩
      rw [outcome_convert_object (hinvoke.mono (by omega)) hlibrary hregistered.plain]
      exact outcome_token (hinvoke.mono (by omega)) hworks hregistered
  | .array items, h, v, fuel + 1, hlibrary, hworks, hv, hfuel => by
    rw [Lies] at hv
    obtain ⟨a, vs, rfl, ha, harray, hvs⟩ := hv
    rw [Wire.cost] at hfuel
    let o : Object := { kind := .array vs.length true, proto := some Heap.arrayProto }
    have halloc : h.Grown (h.alloc o).1 := .alloc h o
    have hfilling : Filling (h.alloc o).1 h.objects.size vs.length [] :=
      ⟨by simp, ∅, Heap.object_alloc_self h o, .empty⟩
    obtain ⟨news, h', hrun, happart, hdeep, hfilling', hlie⟩ := outcome_convertFrom depth items [] hlibrary hworks
      halloc (Nat.le_refl _) harray ha hvs hfilling rfl (Nat.le_of_lt_succ hfuel)
    have hlength : news.length = vs.length := hlie.length.trans hvs.length.symm
    have hsize := Heap.size_alloc h o
    have hnew : ArrayOf h' h.objects.size news := hfilling'.arrayOf hlength harray.bound
    have hconvert := outcome_convert_array (m := m) ((within_callWithin (depth + 2)).mono (by omega)) hlibrary harray.isArray
      harray.get_length harray.bound fuel
    refine ⟨_, h', hconvert.trans (outcome_bind_ok hrun), happart.grown halloc (Nat.le_refl _), ?_, ?_⟩
    · rw [Wire.nesting]
      omega
    · refine ⟨_, news, rfl, ⟨Nat.le_refl _, hfilling'.1⟩, hnew, ?_⟩
      exact hlie.mono (fun b hb => ⟨⟨hb.1.le, hb.2⟩, rfl⟩) (fun _ _ hname => hname) items

/-- The items from an index on are converted and put behind those that are in the new array already. -/
theorem outcome_convertFrom (depth : Nat) : (rest : List Wire) → (olds : List Value) → {h₀ h : Heap} → {a c : Address} →
    {others news : List Value} →
    {fuel : Nat} → Library h₀ → m.Works h₀ → h₀.Grown h → h₀.objects.size ≤ c → ArrayOf h₀ a (olds ++ others) →
    a < h₀.objects.size → LieAll h₀ (· < h₀.objects.size) (m.Names h₀) rest others →
    Filling h c (olds ++ others).length news → news.length = olds.length → Wire.itemCost rest ≤ fuel → ∃ news' h',
      outcome (convertFrom (callWithin (depth + 2)) m (.object a) (.object c) fuel olds.length) h = (.ok (), h') ∧
      Heap.Apart c h h' ∧ h.objects.size + Wire.itemNesting rest ≤ h'.objects.size ∧
      Filling h' c (olds ++ others).length (news ++ news') ∧
      LieAll h' (fun b => c < b ∧ b < h'.objects.size) (fun _ _ => False) rest news'
  | rest, _, _, _, _, _, _, _, 0, _, _, _, _, _, _, _, _, _, hfuel =>
    absurd hfuel (Nat.not_le_of_lt (Wire.itemCost_pos rest))
  | [], olds, h₀, h, a, c, others, news, fuel + 1, hlibrary, hworks, hgrown, hc, harray, ha, hlie, hfilling, hnews, hfuel => by
    rw [LieAll] at hlie
    subst hlie
    refine ⟨[], h, ?_, ⟨Nat.le_refl _, fun _ _ _ => rfl⟩, Nat.le_refl _, ?_, rfl⟩
    · rw [List.append_nil] at harray
      have hlength := (harray.of_object_eq (hgrown.object a ha)).get_length
      rw [outcome_convertFrom_below hlength harray.bound le_rfl, if_neg (Nat.lt_irrefl _), outcome_pure]
    · rw [List.append_nil news]
      exact hfilling
  | w :: rest, olds, h₀, h, a, c, others, news, fuel + 1, hlibrary, hworks, hgrown, hc, harray, ha, hlie, hfilling, hnews,
      hfuel => by
    rw [LieAll] at hlie
    obtain ⟨v, others, rfl, hv, hothers⟩ := hlie
    rw [Wire.itemCost] at hfuel
    have hpos := Wire.itemCost_pos rest
    have hroom : olds.length < (olds ++ v :: others).length := by simp
    have harray' : ArrayOf h a (olds ++ v :: others) := harray.of_object_eq (hgrown.object a ha)
    have hitem : h.get a (.ofNat olds.length) = v := harray'.get_item (by simp)
    obtain ⟨v', h₁, hconvert, hconverts⟩ := outcome_convert depth w (hlibrary.keeps hgrown.keeps)
      (hworks.keeps hgrown.keeps)
      (hv.grown hgrown) (show w.cost < fuel by omega)
    obtain ⟨h₂, hstore, hsize, hset, hfilling₂⟩ := Run.outcome_store
      (hlibrary.keeps (hgrown.trans hconverts.grown).keeps)
      (hfilling.of_grown hconverts.grown) (hnews ▸ hroom) harray.bound (callWithin (depth + 2)) v'
    have happart : Heap.Apart c h h₂ := (Heap.Apart.of_grown hconverts.grown c).trans hset
    have hcons : olds ++ v :: others = (olds ++ [v]) ++ others := List.append_cons ..
    rw [hcons] at hfilling₂ harray
    obtain ⟨news', h', hrun, happart', hdeep, hfilling', hlie⟩ := outcome_convertFrom depth rest (olds ++ [v]) hlibrary hworks
      (happart.grown hgrown hc) hc harray ha hothers hfilling₂ (by rw [List.length_append, List.length_append, hnews]; rfl)
      (show Wire.itemCost rest ≤ fuel by omega)
    rw [hsize] at hdeep
    refine ⟨v' :: news', h', ?_, happart.trans happart', ?_, ?_, v', news', rfl, ?_, hlie⟩
    · rw [outcome_convertFrom_below harray'.get_length harray'.bound hroom.le, if_pos hroom, hitem, outcome_bind_ok hconvert,
        ← hnews, outcome_bind_ok hstore, hnews]
      rwa [List.length_append] at hrun
    · have hdeep₁ := hconverts.deep
      have hgrows := happart'.size
      rw [Wire.itemNesting]
      omega
    · rwa [hcons, List.append_cons news]
    · have hgrows := happart'.size
      refine hconverts.lies.mono (fun b hb => ?_) (fun _ _ hname => hname) w
      have hne : c < b := hfilling.1.trans_le hb.1
      refine ⟨⟨hne, hb.2.trans_le (hsize ▸ hgrows)⟩, ?_⟩
      rw [happart'.object b (hsize.symm ▸ hb.2) hne.ne', hset.object b hb.2 hne.ne']
end

end Converter
end ScriptBridge.Script
