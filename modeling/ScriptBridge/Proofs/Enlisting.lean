import ScriptBridge.Proofs.Converting
import ScriptBridge.Proofs.NestedValues

/-! Conversion where objects get slots on the way. A tree is converted from left to right while the table grows: what
comes later is converted with the slots that came before, an object that is met again finds its slot, and the arrays
that are read stay as they are. -/
namespace ScriptBridge.Script

variable {h h' h'' h₀ : Heap} {m : Memory} {a b c : Address} {n : Nat} {v w : Value} {vs ws slots all : List Value}
  {changed : Address → Prop}

/-- The slots of a table once a number of objects have one each. -/
def enlistAll (slots : List Value) (as : List Address) : List Value := as.foldl enlist slots

theorem enlistAll_append (slots : List Value) (as bs : List Address) :
    enlistAll slots (as ++ bs) = enlistAll (enlistAll slots as) bs := List.foldl_append

/-- Slots stay where they are. -/
theorem prefix_enlistAll (slots : List Value) (as : List Address) : slots <+: enlistAll slots as := by
  induction as generalizing slots with
  | nil => exact List.prefix_rfl
  | cons a as ih => exact (prefix_enlist slots a).trans (ih (enlist slots a))

/-- An array gets other items, and nothing else is changed. -/
structure Heap.Refilled (c : Address) (h h' : Heap) : Prop where
  size : h'.objects.size = h.objects.size
  object : ∀ b, b ≠ c → h'.object b = h.object b
  kind : ∃ n n' w, n ≤ n' ∧ (h.object c).kind = .array n w ∧ (h'.object c).kind = .array n' w
  proto : (h'.object c).proto = (h.object c).proto
  names : (h'.object c).names = (h.object c).names

namespace Heap.Refilled

theorem of_filling (happart : Heap.Apart c h h') (hsize : h'.objects.size = h.objects.size)
    (hfilling : Filling h c n vs) (hfilling' : Filling h' c n ws) : Refilled c h h' := by
  obtain ⟨hc, elements, hobject, -⟩ := hfilling
  obtain ⟨-, elements', hobject', -⟩ := hfilling'
  refine ⟨hsize, fun b hb => ?_, ⟨n, n, true, le_rfl, by rw [hobject], by rw [hobject']⟩, by rw [hobject, hobject'],
    by rw [hobject, hobject']⟩
  by_cases hmade : b < h.objects.size
  · exact happart.object b hmade hb
  · rw [object_of_size_le (Nat.le_of_not_lt hmade), object_of_size_le (by rw [hsize]; exact Nat.le_of_not_lt hmade)]

theorem proxy? (hrefilled : Refilled c h h') (b : Address) : (h'.object b).kind.proxy? = (h.object b).kind.proxy? := by
  by_cases hb : b = c
  · subst hb
    obtain ⟨n, n', w, -, hkind, hkind'⟩ := hrefilled.kind
    rw [hkind, hkind']
    rfl
  · rw [hrefilled.object b hb]

theorem storage (hrefilled : Refilled c h h') (b : Address) : h'.storage b = h.storage b :=
  storage_congr fun b _ => hrefilled.proxy? b

theorem own? (hrefilled : Refilled c h h') {k : Key} (hname : ∃ x, k = .name x) (hlength : k ≠ .length) (b : Address) :
    h'.own? b k = h.own? b k := by
  obtain ⟨x, rfl⟩ := hname
  rw [own?_of_ne_length hlength, own?_of_ne_length hlength, Heap.stored, Heap.stored, hrefilled.storage]
  by_cases hb : h.storage b = c
  · rw [hb]
    exact congrArg (fun names => (names.find? fun p => p.1 = .name x).map Prod.snd) hrefilled.names
  · rw [hrefilled.object _ hb]

theorem keeps (hrefilled : Refilled c h h') (hc : c ≠ arrayProto ∧ c ≠ objectProto) : h.Keeps h' where
  agrees x hx := by
    obtain ⟨hname, -⟩ := Key.ofText_identifier (Key.ofText_vocabulary x hx)
    have hlength : Key.ofText x ≠ .length := by
      rw [show Key.length = .ofText "length" from by decide]
      exact Key.ofText_ne (ne_of_mem_of_not_mem hx (by decide))
    refine ⟨hrefilled.size.ge, fun b _ => ?_, fun b _ => hrefilled.own? ⟨_, hname⟩ hlength b⟩
    rw [Heap.stored, Heap.stored, hrefilled.storage]
    by_cases hb : h.storage b = c
    · rw [hb, hrefilled.proto]
    · rw [hrefilled.object _ hb]
  code f code hf := by
    rw [Heap.code?, Heap.stored] at hf ⊢
    rw [hrefilled.storage]
    by_cases hb : h.storage f = c
    · obtain ⟨n, n', w, -, hkind, -⟩ := hrefilled.kind
      rw [hb, hkind] at hf
      cases hf
    · rwa [hrefilled.object _ hb]
  maps u entries hkind := by
    refine ⟨entries, ?_⟩
    rwa [hrefilled.object u]
    rintro rfl
    obtain ⟨n, n', w, -, hkind', -⟩ := hrefilled.kind
    rw [hkind] at hkind'
    cases hkind'
  protos b hb _ := by
    have hne : b ≠ c := by
      rcases hb with rfl | rfl
      · exact hc.1.symm
      · exact hc.2.symm
    rw [isProxy, hrefilled.object b hne]
    exact ⟨rfl, rfl, rfl⟩
  global _ hkind := by
    rwa [hrefilled.object _]
    intro heq
    obtain ⟨n, n', w, -, hkind', -⟩ := hrefilled.kind
    rw [← heq, hkind] at hkind'
    cases hkind'

theorem intact (hrefilled : Refilled c h h') : Intact (· = c) h h' where
  size := hrefilled.size.ge
  kind b _ := by
    by_cases hb : b = c
    · subst hb
      obtain ⟨n, n', w, hle, hkind, hkind'⟩ := hrefilled.kind
      rw [hkind, hkind']
      exact .array hle
    · rw [hrefilled.object b hb]
      exact .same _
  inherits b _ hb := by rw [hrefilled.object b hb]; exact ⟨rfl, rfl⟩
  arrays b _ hb _ _ := hrefilled.object b hb

end Heap.Refilled

namespace Slotted

/-- Arrays other than the table may get other items. -/
theorem undisturbed_of_refilled (hslotted : Slotted m h slots) (hc : (h.object c).proto = some Heap.arrayProto)
    (htable : m.table ≠ .object c) (hrefilled : Heap.Refilled c h h') : m.Undisturbed h h' := by
  have hlibrary := hslotted.foundations.library
  have hne : c ≠ Heap.arrayProto ∧ c ≠ Heap.objectProto := by
    constructor
    · rintro rfl
      rw [hlibrary.arrayProto.2.1] at hc
      exact absurd hc (by decide)
    · rintro rfl
      rw [hlibrary.objectProto.2.1] at hc
      cases hc
  have hkeeps := hrefilled.keeps hne
  exact {
    size := hrefilled.size.ge
    foundations := Foundations.keeps hkeeps
    works := Memory.Works.keeps hkeeps
    bare := fun hbare i => by
      rw [hrefilled.object _ hne.1.symm, hrefilled.object _ hne.2.symm]
      exact hbare i
    table := fun t ht => .of_eq (hrefilled.object t fun heq => htable (heq ▸ ht))
    map := fun u hu => by
      rw [hrefilled.object u]
      rintro rfl
      obtain ⟨u', entries, hu', hkind, -⟩ := hslotted.works.untagged
      obtain rfl : u' = u := Value.object.inj (hu'.symm.trans hu)
      obtain ⟨n, n', w, -, hkind', -⟩ := hrefilled.kind
      rw [hkind] at hkind'
      cases hkind'
    proxies := fun b hb => by rwa [Heap.isProxy_eq, hrefilled.proxy?, ← Heap.isProxy_eq]
    tags := fun b => by rw [hrefilled.own? hslotted.clear.name hslotted.clear.length] }

/-- New arrays without names do not touch a table. -/
theorem undisturbed_of_alloc (hslotted : Slotted m h slots) (n : Nat) :
    m.Undisturbed h (h.alloc { kind := .array n true, proto := some Heap.arrayProto }).1 := by
  obtain ⟨x, hx⟩ := hslotted.clear.name
  refine hslotted.undisturbed_of_adds (.alloc hslotted.clear.length h rfl ?_)
  rw [hx]
  rfl

end Slotted

/-- The items of an array that conversion may read: one that is not the table itself. -/
def Memory.Source (m : Memory) (h : Heap) (a : Address) (vs : List Value) : Prop := m.table ≠ .object a ∧ ListOf h a vs

theorem ArrayOf.intact (hintact : h.Intact changed h') (ha : ¬changed a) (harray : ArrayOf h a ws) : ArrayOf h' a ws := by
  have hmade := Heap.lt_size_of_array harray.kind
  exact harray.of_object_eq (hintact.arrays a hmade ha harray.isArray (by rw [Heap.isProxy, harray.kind]))

theorem Filling.intact (hintact : h.Intact changed h') (hc : ¬changed c) (hfilling : Filling h c n ws) :
    Filling h' c n ws := by
  obtain ⟨hmade, elements, hobject, hfills⟩ := hfilling
  have heq := hintact.arrays c hmade hc (Heap.isArray_of_kind (by rw [hobject])) (by rw [Heap.isProxy, hobject])
  exact ⟨hmade.trans_le hintact.size, elements, heq.trans hobject, hfills⟩

theorem Nested.Solid.intact (hintact : h.Intact changed h') (hv : Nested.Solid h v) : Nested.Solid h' v := fun a ha =>
  hintact.plain (hv a ha)

namespace Orderly

/-- The table is no object that arrays inherit nothing from. -/
theorem table_not_barren (horderly : Orderly m h slots) (hb : h.Barren b) : m.table ≠ .object b := by
  intro ht
  have hfirst := (horderly.arrayOf_table ht).elements 0
  rw [hb.elements, List.getElem?_eq_getElem (List.length_pos_iff.2 horderly.rooted)] at hfirst
  cases hfirst

theorem source_intact (horderly : Orderly m h slots) (hintact : h.Intact (m.table = .object ·) h')
    (hsource : m.Source h a vs) : m.Source h' a vs :=
  ⟨hsource.1, hsource.2.intact hintact (fun _ hb => horderly.table_not_barren hb) hsource.1⟩

end Orderly

namespace Nested

/-- What the conversion of a tree does: the objects in it are enlisted, arrays other than the table are not changed, and
the rendered tree lies in new arrays. -/
structure Enlists (m : Memory) (token : Address → String) (t : Nested) (slots : List Value) (h h' : Heap) (v : Value) :
    Prop where
  orderly : Orderly m h' (enlistAll slots t.objects)
  intact : h.Intact (m.table = .object ·) h'
  lies : (t.rendered token).Lies (fun w => ∀ a, w ≠ .object a) (fun a vs => h.objects.size ≤ a ∧ ArrayOf h' a vs) v

end Nested

namespace Converter

open Nested (Solid Enlists)
open Run (Within)

variable {invoke : Caller} {token : Address → String}

/-- The converted leaves of a tree. -/
private theorem outcome_convert_leaf (hinvoke : Within 2 invoke)
    (htoken : ∀ (n : Nat) a, all[n]? = some (.object a) → token a = m.scheme ++ String.ofList (Text.decimal n))
    (horderly : Orderly m h slots) (hsolid : Solid h v) (hall : all.length < 2 ^ 32)
    (hlonger : enlistAll slots (Nested.leaf v).objects <+: all) (fuel : Nat) : ∃ v' h',
      outcome (convert invoke m (fuel + 1) v) h = (.ok v', h') ∧ Enlists m token (.leaf v) slots h h' v' := by
  have hlibrary := horderly.foundations.library
  have hkept (w : Value) (hw : w.isNullish = false) (hobject : ∀ a, w ≠ .object a) :=
    outcome_convert_kept (m := m) (hinvoke.mono (by decide)) hlibrary hw hobject fuel
  cases v with
  | undefined | null => exact ⟨.null, h, rfl, horderly, .refl _ h, rfl, nofun⟩
  | bool b => exact ⟨_, h, hkept _ rfl nofun, horderly, .refl _ h, rfl, nofun⟩
  | number x => exact ⟨_, h, hkept _ rfl nofun, horderly, .refl _ h, rfl, nofun⟩
  | string s => exact ⟨_, h, hkept _ rfl nofun, horderly, .refl _ h, rfl, nofun⟩
  | symbol d => exact ⟨_, h, hkept _ rfl nofun, horderly, .refl _ h, rfl, nofun⟩
  | object a =>
    have hplain := hsolid a rfl
    have hroom : (enlist slots a).length < 2 ^ 32 := hlonger.length_le.trans_lt hall
    obtain ⟨n, h', hrun, hslot, horderly', hintact⟩ := outcome_token_enlist hinvoke horderly hplain hroom
    have hn : all[n]? = some (.object a) := slot_of_longer hlonger hslot
    rw [outcome_convert_object (hinvoke.mono (by decide)) hlibrary hplain.array, hrun, ← htoken n a hn]
    exact ⟨_, h', rfl, horderly', hintact, rfl, nofun⟩

mutual
/-- A tree is converted, and the objects in it are enlisted. -/
theorem outcome_convert_nested (hinvoke : Within 2 invoke)
    (htoken : ∀ (n : Nat) a, all[n]? = some (.object a) → token a = m.scheme ++ String.ofList (Text.decimal n))
    (hall : all.length < 2 ^ 32) : (t : Nested) → {h : Heap} → {slots : List Value} → {v : Value} → {fuel : Nat} →
    Orderly m h slots → t.Lies (Solid h) (m.Source h) v → enlistAll slots t.objects <+: all → t.need ≤ fuel → ∃ v' h',
      outcome (convert invoke m fuel v) h = (.ok v', h') ∧ Enlists m token t slots h h' v'
  | t, h, slots, v, 0, _, _, _, hfuel => by
    cases t <;> simp [Nested.need] at hfuel
  | .leaf w, h, slots, v, fuel + 1, horderly, hv, hlonger, _ => by
    rw [Nested.Lies] at hv
    obtain ⟨rfl, hsolid⟩ := hv
    exact outcome_convert_leaf hinvoke htoken horderly hsolid hall hlonger fuel
  | .array items, h, slots, v, fuel + 1, horderly, hv, hlonger, hfuel => by
    rw [Nested.Lies] at hv
    obtain ⟨a, vs, rfl, hsource, hvs⟩ := hv
    rw [Nested.need] at hfuel
    have hlist := hsource.2
    let o : Object := { kind := .array vs.length true, proto := some Heap.arrayProto }
    have hgrown : h.Grown (h.alloc o).1 := .alloc h o
    have hfilling : Filling (h.alloc o).1 h.objects.size vs.length [] :=
      ⟨by simp, ∅, Heap.object_alloc_self h o, .empty⟩
    obtain ⟨news, h', hrun, horderly', hintact, hfilling', hlie⟩ := outcome_convertFrom_nested hinvoke htoken hall items []
      horderly (horderly.undisturbed (horderly.undisturbed_of_alloc vs.length)) (.of_grown _ hgrown) le_rfl hsource hvs hfilling
      rfl hlonger (Nat.le_of_succ_le_succ hfuel)
    have hlength : news.length = vs.length := by
      rw [hlie.length, hvs.length, Nested.length_renderedOf]
    have hnew : ArrayOf h' h.objects.size news := hfilling'.arrayOf hlength hlist.bound
    have hconvert := outcome_convert_array (m := m) (hinvoke.mono (by decide)) horderly.foundations.library hlist.isArray
      hlist.get_length hlist.bound fuel
    refine ⟨_, h', hconvert.trans (outcome_bind_ok hrun), horderly', ?_, ?_⟩
    · refine (Heap.Intact.of_grown (m.table = .object ·) hgrown).trans hintact fun b hb hchanged => ?_
      exact hchanged.resolve_right hb.ne
    · rw [Nested.rendered, Nested.Lies]
      exact ⟨_, news, rfl, ⟨le_rfl, hnew⟩, hlie.mono (fun _ => id) (fun b ws hb => ⟨hb.1.le, hb.2⟩)⟩

/-- The items from an index on are converted, and put behind those that are in the new array already. -/
theorem outcome_convertFrom_nested (hinvoke : Within 2 invoke)
    (htoken : ∀ (n : Nat) a, all[n]? = some (.object a) → token a = m.scheme ++ String.ofList (Text.decimal n))
    (hall : all.length < 2 ^ 32) : (rest : List Nested) → (olds : List Value) → {h₀ h : Heap} → {slots₀ slots : List Value} →
    {a c : Address} → {others news : List Value} → {fuel : Nat} → Orderly m h₀ slots₀ → Orderly m h slots →
    h₀.Intact (m.table = .object ·) h → h₀.objects.size ≤ c → m.Source h₀ a (olds ++ others) →
    Nested.LieAll (Solid h₀) (m.Source h₀) rest others → Filling h c (olds ++ others).length news → news.length = olds.length →
    enlistAll slots (Nested.objectsOf rest) <+: all → Nested.needOf rest ≤ fuel → ∃ news' h',
      outcome (convertFrom invoke m (.object a) (.object c) fuel olds.length) h = (.ok (), h') ∧
      Orderly m h' (enlistAll slots (Nested.objectsOf rest)) ∧ h.Intact (fun b => m.table = .object b ∨ b = c) h' ∧
      Filling h' c (olds ++ others).length (news ++ news') ∧
      Nested.LieAll (fun w => ∀ a, w ≠ .object a) (fun b ws => c < b ∧ ArrayOf h' b ws) (Nested.renderedOf token rest) news'
  | rest, _, _, _, _, _, _, _, _, _, 0, _, _, _, _, _, _, _, _, _, hfuel => by
    cases rest <;> simp [Nested.needOf] at hfuel
  | [], olds, h₀, h, slots₀, slots, a, c, others, news, fuel + 1, hfirst, horderly, hintact, hc, hsource, hlie, hfilling, hnews,
      hlonger, hfuel => by
    rw [Nested.LieAll] at hlie
    subst hlie
    have hlist := (hfirst.source_intact hintact hsource).2
    refine ⟨[], h, ?_, horderly, .refl _ h, by rwa [List.append_nil news], rfl⟩
    rw [List.append_nil] at hlist
    rw [outcome_convertFrom_below hlist.get_length hlist.bound le_rfl, if_neg (Nat.lt_irrefl _), outcome_pure]
  | t :: rest, olds, h₀, h, slots₀, slots, a, c, others, news, fuel + 1, hfirst, horderly, hintact, hc, hsource, hlie, hfilling,
      hnews, hlonger, hfuel => by
    rw [Nested.LieAll] at hlie
    obtain ⟨v, others, rfl, hv, hothers⟩ := hlie
    rw [Nested.needOf] at hfuel
    rw [Nested.objectsOf, enlistAll_append] at hlonger
    have hlist := (hfirst.source_intact hintact hsource).2
    have hroom : olds.length < (olds ++ v :: others).length := by simp
    have hitem : h.get a (.ofNat olds.length) = v := by rw [hlist.get_item hroom]; simp
    have hlies : t.Lies (Solid h) (m.Source h) v :=
      hv.mono (fun w hw => hw.intact hintact) fun b ws hb => hfirst.source_intact hintact hb
    have hbefore : enlistAll slots t.objects <+: all := (prefix_enlistAll _ _).trans hlonger
    obtain ⟨v', h₁, hconvert, henlists⟩ := outcome_convert_nested hinvoke htoken hall t horderly hlies hbefore
      (show t.need ≤ fuel by omega)
    -- The array that is being filled is younger than the table, and no array that was there is touched but the table.
    have htable : m.table ≠ .object c := fun ht => Nat.not_lt_of_le hc (hfirst.table_made ht)
    have hfilling₁ := hfilling.intact henlists.intact htable
    obtain ⟨h₂, hstore, hsize, happart, hfilling₂⟩ := Run.outcome_store henlists.orderly.foundations.library hfilling₁
      (hnews ▸ hroom) hlist.bound invoke v'
    have hrefilled : Heap.Refilled c h₁ h₂ := .of_filling happart hsize hfilling₁ hfilling₂
    have hproto : (h₁.object c).proto = some Heap.arrayProto := by
      obtain ⟨-, elements, hobject, -⟩ := hfilling₁
      rw [hobject]
    have horderly₂ := henlists.orderly.undisturbed (henlists.orderly.undisturbed_of_refilled hproto htable hrefilled)
    have hintact₂ : h.Intact (fun b => m.table = .object b ∨ b = c) h₂ :=
      (henlists.intact.mono fun _ _ => .inl).trans hrefilled.intact fun _ _ => .inr
    have hcons : olds ++ v :: others = (olds ++ [v]) ++ others := List.append_cons ..
    rw [hcons] at hfilling₂ hsource
    obtain ⟨news', h', hrun, horderly', hintact', hfilling', hlie⟩ := outcome_convertFrom_nested hinvoke htoken hall rest
      (olds ++ [v]) hfirst horderly₂
      (hintact.trans hintact₂ fun b hb hchanged => hchanged.resolve_right (hb.trans_le hc).ne) hc hsource hothers hfilling₂
      (by rw [List.length_append, List.length_append, hnews]; rfl) hlonger (show Nested.needOf rest ≤ fuel by omega)
    refine ⟨v' :: news', h', ?_, ?_, hintact₂.trans hintact' fun _ _ => id, ?_, v', news', rfl, ?_, hlie⟩
    · rw [outcome_convertFrom_below hlist.get_length hlist.bound hroom.le, if_pos hroom, hitem, outcome_bind_ok hconvert,
        ← hnews, outcome_bind_ok hstore, hnews]
      rwa [List.length_append] at hrun
    · rwa [Nested.objectsOf, enlistAll_append]
    · rwa [hcons, List.append_cons news]
    · have hintact₁ : h₁.Intact (fun b => m.table = .object b ∨ b = c) h' :=
        (hrefilled.intact.mono fun _ _ => .inr).trans hintact' fun _ _ => id
      refine henlists.lies.mono (fun _ => id) fun b ws hb => ?_
      have hcb : c < b := hfilling.1.trans_le hb.1
      refine ⟨hcb, hb.2.intact hintact₁ ?_⟩
      rintro (ht | rfl)
      · exact Nat.not_lt_of_le (hc.trans hcb.le) (hfirst.table_made ht)
      · exact Nat.lt_irrefl _ hcb
end

end Converter
end ScriptBridge.Script
