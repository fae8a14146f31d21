import ScriptBridge.Proofs.Contexts
import ScriptBridge.Proofs.ReachableTables
import ScriptBridge.Proofs.TamperedTags

/-! Conversion where tags are tampered with. A table that a script has just installed is guarded, and every call of its
converter is a course of it. So the tokens that are given name slots that hold their objects, then and later. -/
namespace ScriptBridge.Script

variable {α β : Type} {h h' h'' : Heap} {m : Memory} {a b c t : Address} {i n : Nat} {v : Value} {x : Number}
  {slots : List Value} {es fs : List (Address × Value)}

/-- A heap in which tables can be made that guard their slots: the language's own objects are in place, arrays inherit
nothing under an index and no object under another name of a number, and the tags of earlier tables are numbers. -/
structure Heap.Secure (h : Heap) (tag : String) : Prop where
  foundations : Foundations h
  bare : Bare h
  tags : ∀ a p, h.own? a (.ofText tag) = some p → ∃ x, p.value = .number x
  silent : ∀ (x : Number) c, x.key = .name c → ∀ b p, (b = Heap.arrayProto ∨ b = Heap.objectProto) →
    h.own? b x.key = some p → ∀ a, p.value ≠ .object a

namespace Number

theorem unused_key {c : Content} (hx : x.key = .name c) : x.key.Unused where
  name := ⟨c, hx⟩
  length := x.key_ne_length
  names y hy := x.key_ne (by revert hy y; decide)

end Number

namespace Installation.Finished

open Realm (addProperty)

variable {i : Installation} {root : Value}

/-- No installation makes an object to be found under the name of a number. -/
theorem silent {c : Content} (hnamed : i.Named) (hsecure : h.Secure i.tag) (hnumbered : m.Numbered h')
    (hfinished : Finished i m root h h') (hx : x.key = .name c) : m.Silent h' x.key := by
  by_cases htag : x.key = .ofText m.tag
  · rw [htag]
    exact hnumbered.silent
  obtain ⟨hbuilt, hmarks, hentered, -, hp, hq⟩ := hfinished
  rename_i f h₀ h₁ p q
  have hlibrary := ((hbuilt.served hsecure.foundations).marks hmarks (hbuilt.clearTag hnamed)).foundations.library
  obtain ⟨t, ht, hfresh, -, harray, -⟩ := hbuilt.table_marks hmarks
  intro b r hb hr
  have hplace : h₁.isProxy b = false ∧ b ≠ Heap.global := by
    rcases hb with hb | rfl | rfl
    · obtain rfl : t = b := Value.object.inj (ht.symm.trans hb)
      exact ⟨by rw [Heap.isProxy, harray.kind], (hsecure.foundations.library.arrayProto_made.trans_le hfresh).ne_bot⟩
    · exact ⟨hlibrary.arrayProto.1, by decide⟩
    · exact ⟨hlibrary.objectProto.1, by decide⟩
  have hstorage : h₁.storage b ≠ Heap.global := by rw [Heap.storage_of_not_isProxy hplace.1]; exact hplace.2
  rw [Realm.own?_addProperty_of_storage_ne _ _ (by rwa [Realm.storage_addProperty]),
    Realm.own?_addProperty_of_storage_ne _ _ hstorage, Heap.own?_of_ne_length x.key_ne_length, Heap.stored, hmarks.storage,
    hentered.property _ _ htag, ← Heap.stored, ← Heap.own?_of_ne_length x.key_ne_length] at hr
  have hold := (hbuilt.extended x.key (Number.unused_key hx)).old b r hr
  rcases hb with hb | hb
  · obtain rfl : t = b := Value.object.inj (ht.symm.trans hb)
    rw [Heap.own?_of_size_le hfresh] at hold
    cases hold
  · exact hsecure.silent x c hx b r hb hold

/-- A new table guards its slots. -/
theorem guarded (hnamed : i.Named) (hsecure : h.Secure i.tag) (hunused : (Key.ofText i.tag).Unused)
    (htable : i.tag ≠ i.table) (hconverter : i.tag ≠ i.converter) (hfinished : Finished i m root h h') :
    Guarded m h' [root] := by
  have hnumbered : m.Numbered h' := by
    intro a r hr
    rcases hfinished.tags hunused htable hconverter hr with hold | hhandle
    · exact hsecure.tags a r hold
    · exact ⟨_, hhandle⟩
  exact {
    toSlotted := hfinished.slotted hnamed hsecure.foundations hsecure.bare
    map := hfinished.handleMap
    tags := hnumbered
    silent := fun x c hx _ => hfinished.silent hnamed hsecure hnumbered hx }

end Installation.Finished

/-- What pages do that leave a table and all tags alone spares the table, where arrays come to inherit nothing under names
of numbers. -/
theorem Memory.Undisturbed.spares (hundisturbed : m.Undisturbed h h') (hown : ∀ (x : Number) c b, x.key = .name c →
    (m.table = .object b ∨ b = Heap.arrayProto ∨ b = Heap.objectProto) → h'.own? b x.key = h.own? b x.key) :
    m.Spares h h' where
  size := hundisturbed.size
  foundations := hundisturbed.foundations
  works := hundisturbed.works
  bare := hundisturbed.bare
  silent x c hx hsilent b p hb hp := hsilent b p hb ((hown x c b hx hb).symm.trans hp)
  table := hundisturbed.table
  map := hundisturbed.map
  tags hnumbered a p hp := by
    have htag := hundisturbed.tags a
    rw [hp, eq_comm, Option.map_some, Option.map_eq_some_iff] at htag
    obtain ⟨q, hq, hvalue⟩ := htag
    exact hvalue ▸ hnumbered a q hq

namespace Guarded

theorem spares_of_alloc (hguarded : Guarded m h slots) (n : Nat) :
    m.Spares h (h.alloc { kind := .array n true, proto := some Heap.arrayProto }).1 := by
  have hgrown := Heap.Grown.alloc h { kind := .array n true, proto := some Heap.arrayProto }
  have hmade := hguarded.foundations.library.arrayProto_made
  refine (hguarded.undisturbed_of_alloc n).spares fun x c b _ hb => hgrown.own? ?_ x.key
  rcases hb with hb | rfl | rfl
  · exact hguarded.table_made hb
  · exact hmade
  · exact Nat.lt_trans (by decide) hmade

theorem spares_of_refilled (hguarded : Guarded m h slots) (hproto : (h.object c).proto = some Heap.arrayProto)
    (htable : m.table ≠ .object c) (hrefilled : Heap.Refilled c h h') : m.Spares h h' :=
  (hguarded.undisturbed_of_refilled hproto htable hrefilled).spares fun x y b hx _ =>
    hrefilled.own? ⟨y, hx⟩ x.key_ne_length b

end Guarded

/-- All arrays are of lengths that arrays can have. -/
def Heap.Sized (h : Heap) : Prop := ∀ a n w, (h.object a).kind = .array n w → n < 2 ^ 32

theorem Heap.lt_size_of_isArray (harray : h.isArray a = true) : a < h.objects.size := by
  by_contra ha
  rw [isArray, stored_of_size_le (Nat.le_of_not_lt ha)] at harray
  cases harray

theorem Heap.Sized.get_length (hsized : h.Sized) (harray : h.isArray a = true) :
    h.get a .length = .nat (h.length a) ∧ h.length a < 2 ^ 32 := by
  rw [isArray] at harray
  split at harray
  · rename_i n w hkind
    have hlength : h.length a = n := by rw [length, hkind]
    have hown : h.own? a .length = some ⟨.nat n, w, false, false⟩ := by
      rw [own?, hkind]
      rfl
    rw [hlength, get_of_find? (find?_of_own? hown)]
    exact ⟨rfl, hsized _ n w hkind⟩
  · cases harray

/-- What the functions of a table do on the way of a conversion: it is a course, objects stay of their kind and inherit
from what they did, and arrays do not become too long. -/
structure Memory.Passes (m : Memory) (h h' : Heap) : Prop where
  course : ∃ es, m.Course h es h'
  size : h.objects.size ≤ h'.objects.size
  kind : ∀ a < h.objects.size, (h.object a).kind.Kept (h'.object a).kind
  proto : ∀ a < h.objects.size, (h'.object a).proto = (h.object a).proto
  sized : h.Sized → h'.Sized

namespace Memory.Passes

theorem refl (m : Memory) (h : Heap) : m.Passes h h :=
  ⟨⟨[], .refl⟩, le_rfl, fun _ _ => .same _, fun _ _ => rfl, id⟩

theorem trans (hpasses : m.Passes h h') (hpasses' : m.Passes h' h'') : m.Passes h h'' where
  course := by
    obtain ⟨es, hcourse⟩ := hpasses.course
    obtain ⟨fs, hcourse'⟩ := hpasses'.course
    exact ⟨es ++ fs, hcourse.trans hcourse'⟩
  size := hpasses.size.trans hpasses'.size
  kind a ha := (hpasses.kind a ha).trans (hpasses'.kind a (ha.trans_le hpasses.size))
  proto a ha := (hpasses'.proto a (ha.trans_le hpasses.size)).trans (hpasses.proto a ha)
  sized := hpasses'.sized ∘ hpasses.sized

theorem guarded (hpasses : m.Passes h h') (hguarded : ∃ slots, Guarded m h slots) : ∃ slots, Guarded m h' slots := by
  obtain ⟨es, hcourse⟩ := hpasses.course
  obtain ⟨slots, hguarded⟩ := hguarded
  obtain ⟨slots', -, hguarded', -⟩ := hcourse.guarded hguarded
  exact ⟨slots', hguarded'⟩

theorem isArray (hpasses : m.Passes h h') (ha : a < h.objects.size) (harray : h.isArray a = true) :
    h'.isArray a = true ∧ h.length a ≤ h'.length a := by
  have hstorage : h'.storage a = h.storage a :=
    Heap.storage_congr fun b hb => (hpasses.kind b (hb.trans_lt ha)).proxy?
  have hkept := hpasses.kind (h.storage a) ((h.storage_le a).trans_lt ha)
  rw [Heap.isArray, Heap.stored] at harray
  rw [Heap.isArray, Heap.length, Heap.length, Heap.stored, Heap.stored, hstorage]
  generalize (h.object (h.storage a)).kind = k at hkept harray ⊢
  generalize (h'.object (h.storage a)).kind = k' at hkept ⊢
  cases hkept with
  | same => exact ⟨harray, le_rfl⟩
  | array hle => exact ⟨rfl, hle⟩
  | map => cases harray

end Memory.Passes

namespace Memory.Passes

variable {invoke : Caller} {w : Bool}

theorem register (hinvoke : Run.Within 2 invoke) (hguarded : Guarded m h slots) (harray : h.isArray a = false) :
    m.Passes h (outcome (Converter.register invoke m (.object a)) h).2 := by
  obtain ⟨slots', henrolled⟩ := Converter.enrolled_register hinvoke hguarded harray
  have hmarks := henrolled.marks
  refine ⟨⟨_, Course.refl.move (.registered hinvoke harray rfl)⟩, hmarks.size.ge, fun b _ => (hmarks.object b).kind,
    fun b _ => (hmarks.object b).proto, fun hsized b k w hk => ?_⟩
  by_cases htable : m.table = .object b
  · have harrayOf := henrolled.guarded.arrayOf_table htable
    obtain ⟨rfl, -⟩ := Kind.array.inj (harrayOf.kind.symm.trans hk)
    exact harrayOf.bound
  · by_cases huntagged : m.untagged = .object b
    · obtain ⟨u, entries, hu, hkind, -⟩ := hguarded.works.untagged
      obtain rfl : u = b := Value.object.inj (hu.symm.trans huntagged)
      have hkept := (hmarks.object u).kind
      rw [hkind, hk] at hkept
      cases hkept
    · exact hsized b k w (((hmarks.others b htable).2 huntagged).symm.trans hk)

theorem alloc (hguarded : Guarded m h slots) (hn : n < 2 ^ 32) :
    m.Passes h (h.alloc { kind := .array n true, proto := some Heap.arrayProto }).1 := by
  have hgrown := Heap.Grown.alloc h { kind := .array n true, proto := some Heap.arrayProto }
  refine ⟨⟨_, Course.refl.move (.spared (hguarded.spares_of_alloc n))⟩, hgrown.size,
    fun b hb => by rw [hgrown.object b hb]; exact .same _, fun b hb => by rw [hgrown.object b hb], fun hsized b k w hk => ?_⟩
  rcases Nat.lt_trichotomy b h.objects.size with hb | rfl | hb
  · exact hsized b k w (by rwa [hgrown.object b hb] at hk)
  · rw [Heap.object_alloc_self] at hk
    obtain ⟨rfl, -⟩ := Kind.array.inj hk
    exact hn
  · rw [Heap.object_of_size_le (by rw [Heap.size_alloc]; exact hb)] at hk
    cases hk

theorem store (hguarded : Guarded m h slots) (hkind : (h.object c).kind = .array n w)
    (hproto : (h.object c).proto = some Heap.arrayProto) (htable : m.table ≠ .object c) (hi : i < Key.indexBound)
    (invoke : Caller) (v : Value) : m.Passes h (outcome (Run.store invoke (.object c) (.index i) v) h).2 := by
  obtain ⟨hrefilled, k, hk, hkind'⟩ := Run.refilled_store hkind invoke i v
  refine ⟨⟨_, Course.refl.move (.spared (hguarded.spares_of_refilled hproto htable hrefilled))⟩, hrefilled.size.ge, hrefilled.intact.kind, fun b _ => ?_,
    fun hsized b l w hl => ?_⟩
  · by_cases hb : b = c
    · rw [hb, hrefilled.proto]
    · rw [hrefilled.object b hb]
  · by_cases hb : b = c
    · rw [hb, hkind'] at hl
      obtain ⟨rfl, -⟩ := Kind.array.inj hl
      exact hk.trans_lt (max_lt (hsized c n _ hkind) (Nat.succ_lt_succ hi))
    · exact hsized b l w (by rwa [hrefilled.object b hb] at hl)

end Memory.Passes

/-- A step on the way of a conversion: an object is registered, an array is made, or an item is stored in an array other
than the table. -/
inductive Memory.Stride (m : Memory) (h : Heap) : Heap → Prop
  | registered {invoke : Caller} {a : Address} (within : Run.Within 2 invoke) (array : h.isArray a = false) :
      m.Stride h (outcome (Converter.register invoke m (.object a)) h).2
  | allocated {n : Nat} (bound : n < 2 ^ 32) : m.Stride h (h.alloc { kind := .array n true, proto := some Heap.arrayProto }).1
  | stored {c : Address} {n i : Nat} {w : Bool} (kind : (h.object c).kind = .array n w)
      (proto : (h.object c).proto = some Heap.arrayProto) (table : m.table ≠ .object c) (index : i < Key.indexBound)
      (invoke : Caller) (v : Value) : m.Stride h (outcome (Run.store invoke (.object c) (.index i) v) h).2

/-- The way of a conversion. -/
def Memory.Strides (m : Memory) : Heap → Heap → Prop := Relation.ReflTransGen m.Stride

theorem Memory.Stride.passes (hguarded : Guarded m h slots) (hstride : m.Stride h h') : m.Passes h h' := by
  cases hstride with
  | registered hinvoke harray => exact .register hinvoke hguarded harray
  | allocated hn => exact .alloc hguarded hn
  | stored hkind hproto htable hi invoke v => exact .store hguarded hkind hproto htable hi invoke v

namespace Memory.Strides

theorem of_eq {r : Run α} {x : Except Thrown α} (hr : outcome r h = (x, h)) : m.Strides h (outcome r h).2 := by
  rw [hr]
  exact .refl

theorem bind {r : Run α} {g : α → Run β} (hstrides : m.Strides h (outcome r h).2)
    (hrest : ∀ x h', outcome r h = (.ok x, h') → m.Strides h h' → m.Strides h' (outcome (g x) h').2) :
    m.Strides h (outcome (r >>= g) h).2 := by
  rcases hr : outcome r h with ⟨e | x, h'⟩
  · rw [outcome_bind_error hr]
    rwa [hr] at hstrides
  · rw [hr] at hstrides
    rw [outcome_bind_ok hr]
    exact hstrides.trans (hrest x h' hr hstrides)

theorem passes (hguarded : ∃ slots, Guarded m h slots) (hstrides : m.Strides h h') : m.Passes h h' := by
  induction hstrides with
  | refl => exact .refl m h
  | tail _ hstride ih =>
    obtain ⟨slots, hguarded'⟩ := ih.guarded hguarded
    exact ih.trans (hstride.passes hguarded')

end Memory.Strides

namespace Converter

open Memory (Strides)
open Run (Within)

variable {invoke : Caller}

theorem strides_token (hinvoke : Within 2 invoke) (hguarded : Guarded m h slots) (harray : h.isArray a = false) :
    m.Strides h (outcome (token invoke m (.object a)) h).2 := by
  obtain ⟨slots', henrolled⟩ := enrolled_register hinvoke hguarded harray
  refine Strides.bind (.single (.registered hinvoke harray)) fun v h' hrun _ => ?_
  rw [hrun] at henrolled
  obtain ⟨x, rfl, -⟩ := henrolled.handle v rfl
  exact .of_eq (outcome_sum invoke m.scheme x h')

/-- The token of an object is written with a handle for it. -/
private theorem outcome_token_handle (hinvoke : Within 2 invoke) (hguarded : Guarded m h slots) (harray : h.isArray a = false)
    (hroom : slots.length < Key.indexBound) : ∃ (x : Number) (slots' : List Value) (h' : Heap),
    outcome (token invoke m (.object a)) h = (.ok (.text (m.scheme ++ String.ofList x.text)), h') ∧ Guarded m h' slots' ∧
      (slots'.length < Key.indexBound → ∃ n, x.text = Text.decimal n ∧ slots'[n]? = some (.object a)) := by
  obtain ⟨slots', henrolled⟩ := enrolled_register hinvoke hguarded harray
  rcases hrun : outcome (register invoke m (.object a)) h with ⟨r, h'⟩
  rw [hrun] at henrolled
  obtain ⟨v, rfl⟩ := henrolled.answers hroom
  obtain ⟨x, rfl, hslot⟩ := henrolled.handle v rfl
  refine ⟨x, slots', h', ?_, henrolled.guarded, hslot⟩
  rw [token, outcome_bind_ok hrun]
  exact outcome_sum invoke m.scheme x h'

mutual
/-- Whatever is converted, and however conversion ends, it goes step by step. -/
theorem strides_convert (hinvoke : Within 2 invoke) : (fuel : Nat) → {h : Heap} → {v : Value} →
    (∃ slots, Guarded m h slots) → h.Sized → m.Strides h (outcome (convert invoke m fuel v) h).2
  | 0, h, v, _, _ => .of_eq rfl
  | fuel + 1, h, v, ⟨slots, hguarded⟩, hsized => by
    have hlibrary := hguarded.foundations.library
    by_cases hobject : ∃ a, v = .object a
    · obtain ⟨a, rfl⟩ := hobject
      cases harray : h.isArray a with
      | false =>
        rw [outcome_convert_object (hinvoke.mono (by decide)) hlibrary harray fuel]
        exact strides_token hinvoke hguarded harray
      | true =>
        obtain ⟨hlength, hn⟩ := hsized.get_length harray
        let o : Object := { kind := .array (h.length a) true, proto := some Heap.arrayProto }
        have halloc : m.Passes h (h.alloc o).1 := .alloc hguarded hn
        have hself : (h.alloc o).1.object h.objects.size = o := Heap.object_alloc_self h o
        have ha := Heap.lt_size_of_isArray harray
        have htable : m.table ≠ .object h.objects.size := fun ht => (hguarded.table_made ht).false
        rw [outcome_convert_array (hinvoke.mono (by decide)) hlibrary harray hlength hn fuel]
        refine Relation.ReflTransGen.head (.allocated hn) ((strides_convertFrom hinvoke fuel (halloc.guarded ⟨slots, hguarded⟩)
          (halloc.sized hsized) (ha.trans_le halloc.size) (halloc.isArray ha harray).1 htable ⟨_, _, by rw [hself]⟩
          (by rw [hself]) (Nat.zero_le _)).bind fun _ h' _ _ => ?_)
        exact .of_eq (outcome_pure (Value.object h.objects.size) h')
    · have hobject (a : Address) : v ≠ .object a := fun heq => hobject ⟨a, heq⟩
      cases hnullish : v.isNullish with
      | true =>
        refine .of_eq (x := .ok .null) ?_
        rw [convert, if_pos hnullish, outcome_pure]
        exact hobject
      | false => exact .of_eq (outcome_convert_kept (hinvoke.mono (by decide)) hlibrary hnullish hobject fuel)

/-- So does the conversion of the items of an array. -/
theorem strides_convertFrom (hinvoke : Within 2 invoke) : (fuel : Nat) → {h : Heap} → {a c : Address} → {i : Nat} →
    (∃ slots, Guarded m h slots) → h.Sized → a < h.objects.size → h.isArray a = true → m.table ≠ .object c →
    (∃ n w, (h.object c).kind = .array n w) → (h.object c).proto = some Heap.arrayProto → i ≤ h.length a →
    m.Strides h (outcome (convertFrom invoke m (.object a) (.object c) fuel i) h).2
  | 0, h, _, _, _, _, _, _, _, _, _, _, _ => .of_eq rfl
  | fuel + 1, h, a, c, i, hguarded, hsized, ha, harray, htable, hkind, hproto, hi => by
    obtain ⟨hlength, hn⟩ := hsized.get_length harray
    rw [outcome_convertFrom_below hlength hn hi invoke fuel c]
    by_cases hbelow : i < h.length a
    · have hindex : i < Key.indexBound := Nat.lt_of_lt_of_le hbelow (Nat.le_sub_one_of_lt hn)
      rw [if_pos hbelow, show Key.ofNat i = .index i from if_pos hindex]
      refine (strides_convert hinvoke fuel hguarded hsized).bind fun item h₁ _ hstrides₁ => ?_
      have hpasses₁ := hstrides₁.passes hguarded
      -- The array that is being filled is an array still, and inherits from what it did.
      obtain ⟨n, w, hkind⟩ := hkind
      have hmade : c < h.objects.size := Heap.lt_size_of_array hkind
      have hkept := hpasses₁.kind c hmade
      rw [hkind] at hkept
      obtain ⟨n₁, -, hkind₁⟩ := hkept.of_array
      have hproto₁ := (hpasses₁.proto c hmade).trans hproto
      refine Strides.bind (.single (.stored hkind₁ hproto₁ htable hindex invoke item)) fun _ h₂ _ hstrides₂ => ?_
      have hpasses₂ := hstrides₂.passes (hpasses₁.guarded hguarded)
      have hkept₂ := hpasses₂.kind c (hmade.trans_le hpasses₁.size)
      rw [hkind₁] at hkept₂
      obtain ⟨n₂, -, hkind₂⟩ := hkept₂.of_array
      have hpasses := hpasses₁.trans hpasses₂
      obtain ⟨harray₂, hle⟩ := hpasses.isArray ha harray
      exact strides_convertFrom hinvoke fuel (hpasses.guarded hguarded) (hpasses.sized hsized)
        (ha.trans_le hpasses.size) harray₂ htable ⟨n₂, w, hkind₂⟩ ((hpasses.proto c hmade).trans hproto) (hbelow.trans_le hle)
    · rw [if_neg hbelow]
      exact .of_eq (outcome_pure () h)
end

/-- So it is a course of the table. -/
theorem passes_convert (hinvoke : Within 2 invoke) (fuel : Nat) (hguarded : ∃ slots, Guarded m h slots) (hsized : h.Sized) :
    m.Passes h (outcome (convert invoke m fuel v) h).2 :=
  (strides_convert hinvoke fuel hguarded hsized).passes hguarded

end Converter

/-- Of an object that is no array a converter makes the token. -/
theorem Guarded.outcome_invoke_object (hguarded : Guarded m h slots) (harray : h.isArray a = false)
    (hcode : h.code? c = some (.tool .convert m)) (this : Value) (args : List Value) : ∃ inner, Run.Within 2 inner ∧
      outcome (Run.invoke (.object c) this (.object a :: args)) h = outcome (Converter.token inner m (.object a)) h := by
  obtain ⟨inner, hinner, hrun⟩ := Converter.outcome_invoke hcode this (.object a :: args)
  obtain ⟨fuel, hfuel⟩ := Nat.exists_eq_add_one.2 (Converter.fuelFor_pos h)
  refine ⟨inner, hinner, hrun.trans ?_⟩
  rw [List.headD_cons, hfuel,
    Converter.outcome_convert_object (hinner.mono (by decide)) hguarded.foundations.library harray fuel]

/-- So it goes step by step, whatever arrays there are in the heap. -/
theorem Guarded.strides_object (hguarded : Guarded m h slots) (harray : h.isArray a = false)
    (hcode : h.code? c = some (.tool .convert m)) (this : Value) (args : List Value) :
    m.Strides h (outcome (Run.invoke (.object c) this (.object a :: args)) h).2 := by
  obtain ⟨inner, hinner, hrun⟩ := hguarded.outcome_invoke_object harray hcode this args
  rw [hrun]
  exact Converter.strides_token hinner hguarded harray

/-- A guarded table gives an object the token of a slot that holds it. -/
theorem Guarded.token_names_slot (hguarded : Guarded m h slots) (harray : h.isArray a = false)
    (hcode : h.code? c = some (.tool .convert m)) (this : Value) (args : List Value)
    (hroom : (m.held (outcome (Run.invoke (.object c) this (.object a :: args)) h).2).length < Key.indexBound) :
    ∃ n h', outcome (Run.invoke (.object c) this (.object a :: args)) h =
        (.ok (.text (m.scheme ++ String.ofList (Text.decimal n))), h') ∧
      slots <+: m.held h' ∧ (m.held h')[n]? = some (.object a) := by
  have hstrides := hguarded.strides_object harray hcode this args
  obtain ⟨inner, hinner, hrun⟩ := hguarded.outcome_invoke_object harray hcode this args
  rw [hrun] at hroom hstrides ⊢
  obtain ⟨fs, hcourse⟩ := (hstrides.passes ⟨slots, hguarded⟩).course
  obtain ⟨slots'', hlonger, hguarded'', -⟩ := hcourse.guarded hguarded
  rw [hguarded''.held_eq] at hroom
  obtain ⟨x, slots', h', htoken, hguarded', hslot⟩ :=
    Converter.outcome_token_handle hinner hguarded harray (hlonger.length_le.trans_lt hroom)
  rw [htoken] at hguarded''
  obtain rfl : slots'' = slots' := hguarded''.held_eq.symm.trans hguarded'.held_eq
  obtain ⟨n, htext, hn⟩ := hslot hroom
  rw [htoken]
  refine ⟨n, h', by rw [htext], ?_⟩
  rw [hguarded'.held_eq]
  exact ⟨hlonger, hn⟩

/-- In a new context tables can be made that guard their slots. -/
theorem Heap.Secure.initial : Heap.initial.Secure "nsiId" where
  foundations := .initial
  bare := .initial
  tags a p hp := by
    rw [own?_initial] at hp
    cases hp
  silent x c hx b p hb hp := by
    rw [hx] at hp
    have hlettered := lettered_initial hb hp
    rw [← hx, x.lettered_key] at hlettered
    cases hlettered

open Embedded (engine)

/-- A table is fresh: a script has just installed it in a secure heap. -/
inductive Memory.Fresh (m : Memory) : Heap → Prop
  | installed {c : Config} {h : Heap} {f : Address} (distinct : c.Distinct) (secure : h.Secure c.tagProperty)
      (ok : (engine.execute (Bootstrap.install c) h).result = .ok ())
      (named : (engine.execute (Bootstrap.install c) h).state.Holds Heap.global (.ofText c.converterName) (.object f))
      (code : (engine.execute (Bootstrap.install c) h).state.code? f = some (.tool .convert m)) :
      m.Fresh (engine.execute (Bootstrap.install c) h).state

namespace Memory.Fresh

variable {y : Number}

theorem initial : ∃ m : Memory, m.Fresh (engine.execute (Bootstrap.install {}) Heap.initial).state := by
  have hdistinct := Config.distinct_default
  obtain ⟨h, hrun⟩ := Installation.outcome_initial
  have hexecute := Embedded.execute_install_of_run hdistinct.toClear rootExpr_default hrun
  have hok : (engine.execute (Bootstrap.install {}) Heap.initial).result = .ok () := by rw [hexecute]
  obtain ⟨e, -, m, root, hfinished⟩ := Embedded.execute_install_ok hdistinct.toClear .initial hok
  obtain ⟨f, hnamed, hcode⟩ := (hfinished.placed (hdistinct.named e) .initial).converter
  exact ⟨m, .installed hdistinct .initial hok hnamed hcode⟩

theorem guarded (hfresh : m.Fresh h) : ∃ root, Guarded m h [root] := by
  obtain ⟨hdistinct, hsecure, hok, hnamed, hcode⟩ := hfresh
  obtain ⟨e, root, hfinished⟩ := Installation.finished_of_execute hdistinct.toClear hsecure.foundations hok hnamed hcode
  exact ⟨root, hfinished.guarded (hdistinct.named e) hsecure hdistinct.unused hdistinct.tagTable hdistinct.tagConverter⟩

/-- After a course the slots of a table are those of a list, and what was given are handles for their objects. -/
private theorem course (hfresh : m.Fresh h) (hcourse : m.Course h es h') :
    Guarded m h' (m.held h') ∧ ∀ e ∈ es, HandleFor (m.held h') e.1 e.2 := by
  obtain ⟨root, hguarded⟩ := hfresh.guarded
  obtain ⟨slots, -, hguarded', hhandles⟩ := hcourse.guarded hguarded
  rw [hguarded'.held_eq]
  exact ⟨hguarded', hhandles⟩

/-- Slots are never taken away or given to others, and those that come are behind the others. -/
theorem held_longer (hfresh : m.Fresh h) (hcourse : m.Course h es h') (hcourse' : m.Course h' fs h'') :
    m.held h' <+: m.held h'' := by
  obtain ⟨slots, hlonger, hguarded, -⟩ := hcourse'.guarded (hfresh.course hcourse).1
  rwa [hguarded.held_eq]

/-- However tags are tampered with, what is given for an object at any time is a number that is written as the index of a
slot, and the slot holds the object ever after. -/
theorem handle_names_slot (hfresh : m.Fresh h) (hcourse : m.Course h es h') (hroom : (m.held h').length < Key.indexBound)
    (hgiven : (a, v) ∈ es) :
    ∃ x n, v = .number x ∧ x.text = Text.decimal n ∧ (m.held h')[n]? = some (.object a) := by
  obtain ⟨x, hx, hslot⟩ := (hfresh.course hcourse).2 _ hgiven
  obtain ⟨n, htext, hn⟩ := hslot hroom
  exact ⟨x, n, hx, htext, hn⟩

/-- Handles that are written the same are handles of the same object. -/
theorem handle_injective (hfresh : m.Fresh h) (hcourse : m.Course h es h') (hroom : (m.held h').length < Key.indexBound)
    (ha : (a, .number x) ∈ es) (hb : (b, .number y) ∈ es) (htext : x.text = y.text) : a = b := by
  obtain ⟨x', i, hx, hi, hholds⟩ := hfresh.handle_names_slot hcourse hroom ha
  obtain ⟨y', j, hy, hj, hholds'⟩ := hfresh.handle_names_slot hcourse hroom hb
  obtain rfl := Value.number.inj hx
  obtain rfl := Value.number.inj hy
  obtain rfl : i = j := Text.decimal_injective (hi.symm.trans (htext.trans hj))
  exact Value.object.inj (Option.some.inj (hholds.symm.trans hholds'))

/-- Whatever the converter is called with, and however it ends, the course of its table goes on. -/
theorem converted (hfresh : m.Fresh h) (hcourse : m.Course h es h') (hsized : h'.Sized)
    (hcode : h'.code? c = some (.tool .convert m)) (this : Value) (args : List Value) :
    ∃ fs h'', (outcome (Run.invoke (.object c) this args) h').2 = h'' ∧ m.Course h (es ++ fs) h'' ∧ h''.Sized := by
  obtain ⟨inner, hinner, hrun⟩ := Converter.outcome_invoke hcode this args
  have hpasses := Converter.passes_convert hinner (Converter.fuelFor h') (v := args.headD .undefined)
    ⟨_, (hfresh.course hcourse).1⟩ hsized
  obtain ⟨fs, hcourse'⟩ := hpasses.course
  exact ⟨fs, _, congrArg Prod.snd hrun, hcourse.trans hcourse', hpasses.sized hsized⟩

/-- The converter gives an object the token of a slot that holds it, whatever its tag says. -/
theorem token_names_slot (hfresh : m.Fresh h) (hcourse : m.Course h es h') (harray : h'.isArray a = false)
    (hcode : h'.code? c = some (.tool .convert m)) (this : Value) (args : List Value)
    (hroom : (m.held (outcome (Run.invoke (.object c) this (.object a :: args)) h').2).length < Key.indexBound) :
    ∃ n h'', outcome (Run.invoke (.object c) this (.object a :: args)) h' =
        (.ok (.text (m.scheme ++ String.ofList (Text.decimal n))), h'') ∧
      m.held h' <+: m.held h'' ∧ (m.held h'')[n]? = some (.object a) :=
  (hfresh.course hcourse).1.token_names_slot harray hcode this args hroom

end Memory.Fresh

end ScriptBridge.Script
