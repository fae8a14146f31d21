import ScriptBridge.Proofs.GuardedConversion
import ScriptBridge.Proofs.Reinstalling

/-! Tables that stand. The names of the table and of the converter stand for nothing, or for a table with room and the
converter that belongs to it. An installation puts a new table there or leaves what is there as it was: the half that may
stay behind where a name is refused is not to be met with, since both names are taken as they come, or neither. -/
namespace ScriptBridge

open Script
open Script.Realm (addProperty)
open Embedded (engine)

variable {c : Config} {h h' h₀ h₁ : Heap} {m m' : Memory} {a f : Address} {x : String} {v : Value} {root : Value}
  {slots slots' : List Value} {e : Expr} {i : Installation}

namespace Script

namespace Heap

/-- The global object has a value of its own under a name, and takes others there. -/
def Gives (h : Heap) (x : String) (v : Value) : Prop :=
  ∃ p, h.own? global (.ofText x) = some p ∧ p.value = v ∧ p.writable = true

theorem Gives.holds (hv : h.Gives x v) : h.Holds global (.ofText x) v := by
  obtain ⟨p, hp, hvalue, -⟩ := hv
  exact ⟨p, find?_of_own? hp, hvalue⟩

theorem Gives.takes (hv : h.Gives x v) : Run.Takes h x := by
  obtain ⟨p, hp, -, hwritable⟩ := hv
  exact ⟨p, hp, hwritable⟩

theorem Gives.congr (hown : h'.own? global (.ofText x) = h.own? global (.ofText x)) (hv : h.Gives x v) : h'.Gives x v := by
  obtain ⟨p, hp, hvalue⟩ := hv
  exact ⟨p, hown.trans hp, hvalue⟩

/-- A name stands for nothing, where the global object inherits from the object that all others inherit from. -/
theorem find?_global_none {k : Key} (hfoundations : Foundations h) (hproto : (h.object global).proto = some objectProto)
    (hnone : ∀ a ∈ [global, objectProto], h.own? a k = none) : h.find? global k = none := by
  obtain ⟨hproxy, htop, -⟩ := hfoundations.library.objectProto
  have hstored : h.stored global = h.object global := by rw [stored, storage_ordinary hfoundations.global]
  have hstored' : h.stored objectProto = h.object objectProto := by rw [stored, storage_of_not_isProxy hproxy]
  rcases hfind : h.find? global k with _ | p
  · rfl
  rcases findWithin_cases hfind with hown | ⟨b, n, hb, hp⟩
  · rw [hnone _ (.head _)] at hown
    cases hown
  · rw [hstored, hproto] at hb
    obtain rfl := Option.some.inj hb
    rcases findWithin_cases hp with hown | ⟨b, n, hb, -⟩
    · rw [hnone _ (.tail _ (.head _))] at hown
      cases hown
    · rw [hstored', htop] at hb
      cases hb

/-- Objects that are added leave a heap secure. -/
theorem Secure.extended {tag : String} (hsecure : h.Secure tag) (hunused : (Key.ofText tag).Unused)
    (hext : h.Extended h') : h'.Secure tag where
  foundations := hsecure.foundations.keeps hext.grown.keeps
  bare i := by
    have hmade := hsecure.foundations.library.arrayProto_made
    rw [hext.grown.object _ hmade, hext.grown.object _ (Nat.lt_trans (by decide) hmade)]
    exact hsecure.bare i
  tags a p hp := hsecure.tags a p ((hext _ hunused).old a p hp)
  silent x y hx b p hb hp := hsecure.silent x y hx b p hb ((hext _ (Number.unused_key hx)).old b p hp)

/-- So does remembering the root of a table. -/
theorem Secure.remembered (hsecure : h.Secure m.tag) (hfoundations : Foundations h') (hmarks : Marks m.tableless h h')
    (hentered : Entered m root 0 h h') : h'.Secure m.tag := by
  have htags (a : Address) (p : Property) (hp : h'.own? a (.ofText m.tag) = some p) : ∃ x, p.value = .number x :=
    (hentered.tags a p hp).elim (hsecure.tags a p) fun hvalue => ⟨_, hvalue⟩
  refine ⟨hfoundations, hmarks.bare ⟨nofun, nofun⟩ hsecure.bare, htags, fun x y hx b p hb hp a ha => ?_⟩
  by_cases htag : x.key = .ofText m.tag
  · obtain ⟨n, hn⟩ := htags b p (htag ▸ hp)
    rw [hn] at ha
    cases ha
  · rw [own?_of_ne_length x.key_ne_length, stored, hmarks.storage, hentered.property _ _ htag, ← stored,
      ← own?_of_ne_length x.key_ne_length] at hp
    exact hsecure.silent x y hx b p hb hp a ha

end Heap

/-- The value that an assignment leaves may be assigned again, if the one that was there could be. -/
theorem Run.Assigned.gives {p : Property} (hp : Run.Assigned h x v p)
    (hwritable : ∀ q, h.own? Heap.global (.ofText x) = some q → q.writable = true) : p.value = v ∧ p.writable = true := by
  rcases hp with ⟨q, hq, rfl⟩ | ⟨-, rfl⟩
  · exact ⟨rfl, hwritable q hq⟩
  · exact ⟨rfl, rfl⟩

end Script

namespace Config

/-- The names of a table and of its converter. -/
def globals (c : Config) : List String := [c.tableName, c.converterName]

/-- The names stand for nothing, in a heap in which tables can be made. -/
structure Vacant (c : Config) (h : Heap) : Prop where
  secure : h.Secure c.tagProperty
  inherits : (h.object Heap.global).proto = some Heap.objectProto
  names : ∀ x ∈ c.globals, ∀ a ∈ [Heap.global, Heap.objectProto], h.own? a (.ofText x) = none

/-- The converter that has the name of one belongs to a table. -/
def Serves (c : Config) (m : Memory) (h : Heap) : Prop :=
  ∃ f, h.Holds Heap.global (.ofText c.converterName) (.object f) ∧ h.code? f = some (.tool .convert m)

/-- The table of the converter has room for another slot. -/
def HasRoom (c : Config) (h : Heap) : Prop := ∀ m, c.Serves m h → (m.held h).length < Key.indexBound

/-- A table with room stands under its name, and the converter that belongs to it under its own. -/
structure Stands (c : Config) (m : Memory) (slots : List Value) (h : Heap) : Prop where
  guarded : Guarded m h slots
  room : slots.length < Key.indexBound
  tag : m.tag = c.tagProperty
  scheme : m.scheme = String.ofList Handle.scheme
  table : h.Gives c.tableName m.table
  converter : ∃ f, h.Gives c.converterName (.object f) ∧ h.code? f = some (.tool .convert m)

/-- A table stands, or there is none. -/
def Settled (c : Config) (h : Heap) : Prop := c.Vacant h ∨ ∃ m slots, c.Stands m slots h

/-- The table of one heap is that of another one later on, with slots behind those that it had; or there is none then. -/
def Lasts (c : Config) (h h' : Heap) : Prop :=
  c.Vacant h' ∨ ∃ m slots slots', c.Stands m slots h ∧ slots <+: slots' ∧ c.Stands m slots' h'

end Config

namespace Config.Vacant

theorem find?_none (hvacant : c.Vacant h) (hx : x ∈ c.globals) : h.find? Heap.global (.ofText x) = none :=
  Heap.find?_global_none hvacant.secure.foundations hvacant.inherits (hvacant.names x hx)

theorem not_holds (hvacant : c.Vacant h) (hx : x ∈ c.globals) : ¬h.Holds Heap.global (.ofText x) v := by
  rintro ⟨p, hp, -⟩
  rw [hvacant.find?_none hx] at hp
  cases hp

theorem extended (hdistinct : c.Distinct) (hvacant : c.Vacant h) (hext : h.Extended h') : c.Vacant h' := by
  have hmade := hvacant.secure.foundations.library.arrayProto_made
  have hearly {a : Address} (ha : a ∈ [Heap.global, Heap.objectProto]) : a < h.objects.size := by
    refine lt_of_le_of_lt ?_ hmade
    revert ha a
    decide
  refine ⟨hvacant.secure.extended hdistinct.unused hext, ?_, fun x hx a ha => ?_⟩
  · rw [hext.grown.object _ (hearly (.head _))]
    exact hvacant.inherits
  · rw [hext.grown.own? (hearly ha)]
    exact hvacant.names x hx a ha

end Config.Vacant

namespace Config.Stands

theorem not_vacant (hstands : c.Stands m slots h) : ¬c.Vacant h := fun hvacant =>
  hvacant.not_holds (.head _) hstands.table.holds

theorem serves (hstands : c.Stands m slots h) : c.Serves m h := by
  obtain ⟨f, hf, hcode⟩ := hstands.converter
  exact ⟨f, hf.holds, hcode⟩

/-- The converter belongs to the table that stands. -/
theorem memory_eq (hstands : c.Stands m slots h) (hserves : c.Serves m' h) : m' = m := by
  obtain ⟨f, hf, hcode⟩ := hserves
  obtain ⟨g, hg, hcode'⟩ := hstands.serves
  obtain rfl : f = g := Value.object.inj (hf.unique hg)
  exact (Code.tool.inj (Option.some.inj (hcode.symm.trans hcode'))).2

theorem unique (hstands : c.Stands m slots h) (hstands' : c.Stands m' slots' h) : m' = m ∧ slots' = slots := by
  obtain rfl := hstands.memory_eq hstands'.serves
  exact ⟨rfl, hstands'.guarded.held_eq.symm.trans hstands.guarded.held_eq⟩

theorem takes (hstands : c.Stands m slots h) (hx : x ∈ c.globals) : Run.Takes h x := by
  obtain ⟨f, hf, -⟩ := hstands.converter
  simp only [globals, List.mem_cons, List.not_mem_nil, or_false] at hx
  rcases hx with rfl | rfl
  · exact hstands.table.takes
  · exact hf.takes

/-- New tables can be made where one stands that has room. -/
theorem secure (hstands : c.Stands m slots h) : h.Secure c.tagProperty where
  foundations := hstands.guarded.foundations
  bare := hstands.guarded.bare
  tags := hstands.tag ▸ hstands.guarded.tags
  silent x y hx b p hb hp := hstands.guarded.silent x y hx (fun _ => hstands.room) b p (.inr hb) hp

/-- A table stands on where it is spared together with its names. -/
theorem spares (hstands : c.Stands m slots h) (hspares : m.Spares h h')
    (hnames : ∀ x ∈ c.globals, h'.own? Heap.global (.ofText x) = h.own? Heap.global (.ofText x))
    (hcode : ∀ f k, h.code? f = some k → h'.code? f = some k) : c.Stands m slots h' where
  guarded := hstands.guarded.spares hspares
  room := hstands.room
  tag := hstands.tag
  scheme := hstands.scheme
  table := hstands.table.congr (hnames _ (.head _))
  converter := by
    obtain ⟨f, hf, hc⟩ := hstands.converter
    exact ⟨f, hf.congr (hnames _ (.tail _ (.head _))), hcode f _ hc⟩

theorem extended (hdistinct : c.Distinct) (hstands : c.Stands m slots h) (hext : h.Extended h') : c.Stands m slots h' := by
  have hadds := hext (.ofText m.tag) (hstands.tag ▸ hdistinct.unused)
  have hmade := hstands.guarded.foundations.library.arrayProto_made
  refine hstands.spares ((hstands.guarded.toSlotted.undisturbed_of_adds hadds).spares fun x y b _ hb => hext.grown.own? ?_ _)
    (fun x _ => hext.grown.own? (Nat.lt_trans (by decide) hmade) _) fun f k => hext.grown.code?
  rcases hb with hb | rfl | rfl
  · exact hstands.guarded.table_made hb
  · exact hmade
  · exact Nat.lt_trans (by decide) hmade

end Config.Stands

namespace Config.Distinct

/-- The functions of a table leave the names alone. -/
theorem steady (hdistinct : c.Distinct) (hx : x ∈ c.globals) : (Key.ofText x).Steady (.ofText c.tagProperty) := by
  have hof {y : String} (hy : isIdentifier y.toList = true) (hspoken : y ∉ spoken) (htag : c.tagProperty ≠ y) :
      (Key.ofText y).Steady (.ofText c.tagProperty) := by
    refine ⟨⟨_, (Key.ofText_identifier hy).1⟩, Key.ofText_ne htag.symm, ?_, (Key.ofText_identifier hy).2⟩
    rw [show Key.length = .ofText "length" from by decide]
    exact Key.ofText_ne fun heq => hspoken (heq ▸ .head _)
  have hsound := hdistinct.sound
  simp only [globals, List.mem_cons, List.not_mem_nil, or_false] at hx
  rcases hx with rfl | rfl
  · exact hof hsound.table hdistinct.table hdistinct.tagTable
  · exact hof hsound.converter hdistinct.converter hdistinct.tagConverter

end Config.Distinct

namespace Script.Installation

/-- Making a table and remembering its root gives no names. -/
theorem Built.own?_globals (hdistinct : c.Distinct) (hfoundations : Foundations h) (hbuilt : Built (.of c e) m root f h h₀)
    (hmarks : Marks m.tableless h₀ h₁) (hx : x ∈ c.globals) :
    h₁.own? Heap.global (.ofText x) = h.own? Heap.global (.ofText x) := by
  have hsteady : (Key.ofText x).Steady (.ofText m.tableless.tag) :=
    (show m.tableless.tag = c.tagProperty from hbuilt.tag) ▸ hdistinct.steady hx
  rw [hmarks.own? hsteady, hbuilt.extended.grown.own? (Heap.lt_size_of_holds hfoundations.globalThis)]

theorem Built.vacant (hdistinct : c.Distinct) (hvacant : c.Vacant h) (hbuilt : Built (.of c e) m root f h h₀)
    (hmarks : Marks m.tableless h₀ h₁) (hentered : Entered m root 0 h₀ h₁) : c.Vacant h₁ := by
  have htag : m.tag = c.tagProperty := hbuilt.tag
  have hvacant₀ := hvacant.extended hdistinct hbuilt.extended
  have hserved := (hbuilt.served hvacant.secure.foundations).marks hmarks (hbuilt.clearTag (hdistinct.named e))
  refine ⟨htag ▸ (htag ▸ hvacant₀.secure).remembered hserved.foundations hmarks hentered, ?_, fun x hx a ha => ?_⟩
  · rw [(hmarks.object _).proto]
    exact hvacant₀.inherits
  · have hsteady : (Key.ofText x).Steady (.ofText m.tableless.tag) := htag.symm ▸ hdistinct.steady hx
    rw [hmarks.own? hsteady]
    exact hvacant₀.names x hx a ha

/-- What an installation puts in place stands. -/
theorem Finished.stands (hdistinct : c.Distinct) (hsecure : h.Secure c.tagProperty)
    (hwritable : ∀ x ∈ c.globals, ∀ p, h.own? Heap.global (.ofText x) = some p → p.writable = true)
    (hfinished : Finished (.of c e) m root h h') : c.Stands m [root] h' := by
  have hnamed := hdistinct.named e
  have hguarded := hfinished.guarded hnamed hsecure hdistinct.unused hdistinct.tagTable hdistinct.tagConverter
  obtain ⟨f, -, hcode⟩ := (hfinished.placed hnamed hsecure.foundations).converter
  obtain ⟨hbuilt, hmarks, -, -, hp, hq⟩ := hfinished
  rename_i g h₀ h₁ p q
  have hserved := (hbuilt.served hsecure.foundations).marks hmarks (hbuilt.clearTag hnamed)
  have hmade : Heap.global < h₁.objects.size := Heap.lt_size_of_holds hserved.foundations.globalThis
  have hordinary := hserved.foundations.global
  have hne : Key.ofText c.tableName ≠ .ofText c.converterName := Key.ofText_ne hnamed.apart
  have hown {x : String} (hx : x ∈ c.globals) := hbuilt.own?_globals hdistinct hsecure.foundations hmarks hx
  refine ⟨hguarded, show 1 < Key.indexBound from by decide, hbuilt.tag, hbuilt.scheme, ⟨p, ?_, ?_⟩, g, ⟨q, ?_, ?_⟩, ?_⟩
  · exact (Realm.own?_addProperty_of_ne _ _ _ hne _).trans (Realm.own?_addProperty_self hmade hordinary _ _)
  · exact hp.gives fun r hr => hwritable _ (.head _) r ((hown (.head _)).symm.trans hr)
  · exact Realm.own?_addProperty_self (by simpa using hmade) (by rw [(Realm.kind_addProperty h₁ _ _ p _).1, hordinary]) _ _
  · refine hq.gives fun r hr => hwritable _ (.tail _ (.head _)) r ((hown (.tail _ (.head _))).symm.trans ?_)
    exact (Realm.own?_addProperty_of_ne h₁ Heap.global p hne.symm _).symm.trans hr
  · rw [Realm.code?_addProperty, Realm.code?_addProperty]
    exact hmarks.code? hbuilt.converter

/-- Where the names stand for nothing an installation takes them both, or fails and takes none: the global object has
room for the second one if it has room for the first. -/
theorem outcome_run_vacant (hdistinct : c.Distinct) (hroot : rootExpr c = .ok e) (hvacant : c.Vacant h) :
    (∃ h' m root, outcome (Installation.of c e).run h = (.ok .undefined, h') ∧ c.Stands m [root] h') ∨
      ∃ t h', outcome (Installation.of c e).run h = (.error t, h') ∧ c.Vacant h' := by
  have hnamed := hdistinct.named e
  have hfoundations := hvacant.secure.foundations
  rcases outcome_run (i := .of c e) (hdistinct.isPath hroot) hfoundations with ⟨t, h', herror, hext⟩ | ⟨m, root, f, h₀, hbuilt, hfinish⟩
  · exact .inr ⟨t, h', herror, hvacant.extended hdistinct hext⟩
  obtain ⟨h₁, hrun, hmarks, hentered, hremembered⟩ := hbuilt.outcome_remembered hnamed hfoundations
  have hvacant₁ := hbuilt.vacant hdistinct hvacant hmarks hentered
  have hfoundations₁ := hvacant₁.secure.foundations
  rw [hfinish, hrun, name]
  rcases Run.outcome_assign_absent hfoundations₁.global (Named.not_mem hnamed.table).2 (hvacant₁.find?_none (.head _))
    m.table with ⟨hroom, htable⟩ | ⟨-, t, htable⟩
  · let g := addProperty h₁ Heap.global c.tableName (.plain m.table)
    have hkind := Realm.kind_addProperty h₁ Heap.global c.tableName (.plain m.table) Heap.global
    have hown (a : Address) : g.own? a (.ofText c.converterName) = h₁.own? a (.ofText c.converterName) :=
      Realm.own?_addProperty_of_ne h₁ _ _ (Key.ofText_ne hnamed.apart.symm) a
    have hnone : g.find? Heap.global (.ofText c.converterName) = none := by
      refine Heap.find?_global_none (hfoundations₁.keeps (Realm.keeps_addProperty _ _ (Named.not_mem hnamed.table).1))
        (hkind.2.1.trans hvacant₁.inherits) fun a ha => ?_
      rw [hown]
      exact hvacant₁.names _ (.tail _ (.head _)) a ha
    rcases Run.outcome_assign_absent (h := g) (hkind.1.trans hfoundations₁.global) (Named.not_mem hnamed.converter).2 hnone
      (.object f) with ⟨-, hconverter⟩ | ⟨hfull, -⟩
    · refine .inl ⟨_, m, root, by rw [outcome_bind_ok htable]; exact outcome_bind_ok hconverter, ?_⟩
      refine Finished.stands hdistinct hvacant.secure (fun x hx p hp => ?_)
        (.intro hbuilt hmarks hentered hremembered (.inr ⟨?_, rfl⟩) (.inr ⟨?_, rfl⟩))
      · rw [hvacant.names x hx _ (.head _)] at hp
        cases hp
      · exact hvacant₁.names _ (.head _) _ (.head _)
      · exact (hown _).trans (hvacant₁.names _ (.tail _ (.head _)) _ (.head _))
    · rw [hkind.2.2, hroom] at hfull
      cases hfull
  · exact .inr ⟨t, h₁, outcome_bind_error htable, hvacant₁⟩

/-- Where a table stands an installation puts a new one in its place, or fails with the root and leaves it there. -/
theorem outcome_run_stands (hdistinct : c.Distinct) (hroot : rootExpr c = .ok e) (hstands : c.Stands m slots h) :
    (∃ h' m' root, outcome (Installation.of c e).run h = (.ok .undefined, h') ∧ c.Stands m' [root] h') ∨
      ∃ t h', outcome (Installation.of c e).run h = (.error t, h') ∧ c.Stands m slots h' := by
  have hnamed := hdistinct.named e
  have hsecure := hstands.secure
  rcases outcome_run (i := .of c e) (hdistinct.isPath hroot) hsecure.foundations with
    ⟨t, h', herror, hext⟩ | ⟨m', root, f, h₀, hbuilt, hfinish⟩
  · exact .inr ⟨t, h', herror, hstands.extended hdistinct hext⟩
  obtain ⟨h₁, hrun, hmarks, hentered, hremembered⟩ := hbuilt.outcome_remembered hnamed hsecure.foundations
  have hserved := (hbuilt.served hsecure.foundations).marks hmarks (hbuilt.clearTag hnamed)
  have htakes {x : String} (hx : x ∈ c.globals) : Run.Takes h₁ x := by
    obtain ⟨p, hp, hwritable⟩ := hstands.takes hx
    exact ⟨p, (hbuilt.own?_globals hdistinct hsecure.foundations hmarks hx).trans hp, hwritable⟩
  rw [hfinish, hrun, name]
  obtain ⟨p, hp, htable⟩ := (Run.outcome_assign_global hserved.foundations.global (Named.not_mem hnamed.table).2
    m'.table).resolve_right fun hrefused => hrefused.1 (htakes (.head _))
  have hkind := Realm.kind_addProperty h₁ Heap.global c.tableName p Heap.global
  have htakes' : Run.Takes (addProperty h₁ Heap.global c.tableName p) c.converterName := by
    obtain ⟨q, hq, hwritable⟩ := htakes (.tail _ (.head _))
    exact ⟨q, (Realm.own?_addProperty_of_ne h₁ _ _ (Key.ofText_ne hnamed.apart.symm) _).trans hq, hwritable⟩
  obtain ⟨q, hq, hconverter⟩ := (Run.outcome_assign_global (hkind.1.trans hserved.foundations.global)
    (Named.not_mem hnamed.converter).2 (.object f)).resolve_right fun hrefused => hrefused.1 htakes'
  refine .inl ⟨_, m', root, by rw [outcome_bind_ok htable]; exact outcome_bind_ok hconverter, ?_⟩
  refine Finished.stands hdistinct hsecure (fun x hx p hp => ?_) (.intro hbuilt hmarks hentered hremembered hp hq)
  obtain ⟨q, hq, hwritable⟩ := hstands.takes hx
  rwa [Option.some.inj (hp.symm.trans hq)]

end Script.Installation

namespace Script.Memory

theorem Passes.code? {k : Code} (hpasses : m.Passes h h') (hcode : h.code? f = some k) : h'.code? f = some k := by
  have hmade : f < h.objects.size := by
    by_contra hmade
    rw [Heap.code?, Heap.stored_of_size_le (Nat.le_of_not_lt hmade)] at hcode
    cases hcode
  have hstorage : h'.storage f = h.storage f :=
    Heap.storage_congr fun b hb => (hpasses.kind b (hb.trans_lt hmade)).proxy?
  have hkept := hpasses.kind (h.storage f) ((h.storage_le f).trans_lt hmade)
  refine Kind.Kept.code? ?_ hcode
  rwa [Heap.stored, Heap.stored, hstorage]

/-- A step of a conversion leaves what objects have under a name that is not the tag. -/
theorem Stride.own? {k : Key} (hguarded : Guarded m h slots) (hk : k.Steady (.ofText m.tag)) (hstride : m.Stride h h')
    (ha : a < h.objects.size) : h'.own? a k = h.own? a k := by
  cases hstride with
  | registered hinvoke harray =>
    obtain ⟨_, henrolled⟩ := Converter.enrolled_register hinvoke hguarded harray
    exact henrolled.marks.own? hk a
  | allocated => exact (Heap.Grown.alloc h _).own? ha k
  | stored hkind _ _ _ invoke v => exact (Run.refilled_store hkind invoke _ v).1.own? hk.name hk.length a

theorem Strides.own? {k : Key} (hguarded : Guarded m h slots) (hk : k.Steady (.ofText m.tag)) (hstrides : m.Strides h h')
    (ha : a < h.objects.size) : h'.own? a k = h.own? a k := by
  induction hstrides with
  | refl => rfl
  | tail hstrides hstride ih =>
    have hpasses := Strides.passes ⟨slots, hguarded⟩ hstrides
    obtain ⟨slots', hguarded'⟩ := hpasses.guarded ⟨slots, hguarded⟩
    exact (hstride.own? hguarded' hk (ha.trans_le hpasses.size)).trans ih

end Script.Memory

/-- A table stands on after the steps of a conversion, while there is room. -/
theorem Config.Stands.strides (hdistinct : c.Distinct) (hstands : c.Stands m slots h) (hstrides : m.Strides h h')
    (hroom : c.HasRoom h') : ∃ slots', slots <+: slots' ∧ c.Stands m slots' h' := by
  have hpasses := hstrides.passes ⟨slots, hstands.guarded⟩
  obtain ⟨es, hcourse⟩ := hpasses.course
  obtain ⟨slots', hlonger, hguarded', -⟩ := hcourse.guarded hstands.guarded
  have hmade : Heap.global < h.objects.size := Heap.lt_size_of_holds hstands.guarded.foundations.globalThis
  have hown {x : String} (hx : x ∈ c.globals) : h'.own? Heap.global (.ofText x) = h.own? Heap.global (.ofText x) :=
    hstrides.own? hstands.guarded (hstands.tag.symm ▸ hdistinct.steady hx) hmade
  obtain ⟨f, hf, hcode⟩ := hstands.converter
  have hf' := hf.congr (hown (.tail _ (.head _)))
  have hcode' := hpasses.code? hcode
  exact ⟨slots', hlonger, hguarded', hguarded'.held_eq ▸ hroom m ⟨f, hf'.holds, hcode'⟩, hstands.tag, hstands.scheme,
    hstands.table.congr (hown (.head _)), f, hf', hcode'⟩

namespace Config

theorem Settled.lasts (hsettled : c.Settled h) : c.Lasts h h :=
  hsettled.imp_right fun ⟨m, slots, hstands⟩ => ⟨m, slots, slots, hstands, List.prefix_rfl, hstands⟩

theorem Lasts.settled (hlasts : c.Lasts h h') : c.Settled h' :=
  hlasts.imp_right fun ⟨m, _, slots', _, _, hstands⟩ => ⟨m, slots', hstands⟩

theorem Lasts.trans {h'' : Heap} (hlasts : c.Lasts h h') (hlasts' : c.Lasts h' h'') : c.Lasts h h'' := by
  rcases hlasts' with hvacant | ⟨m, slots', slots'', hstands', hlonger', hstands''⟩
  · exact .inl hvacant
  rcases hlasts with hvacant | ⟨m', slots, slots₁, hstands, hlonger, hstands₁⟩
  · exact absurd hvacant hstands'.not_vacant
  · obtain ⟨rfl, rfl⟩ := hstands'.unique hstands₁
    exact .inr ⟨_, _, _, hstands, hlonger.trans hlonger', hstands''⟩

end Config

/-- The installing scripts put a new table in place, or what is there lasts. -/
theorem Embedded.installed_settles {i : Expr → Program} (hdistinct : c.Distinct) (hsettled : c.Settled h)
    (hi : ∀ e, outcome ((i e).run .top) h = outcome (Installation.of c e).run h) :
    let r := installed i (rootExpr c) h
    (r.result = .ok () ∧ c.Settled r.state) ∨ (∃ f, r.result = .error f) ∧ c.Lasts h r.state := by
  intro r
  cases hroot : rootExpr c with
  | error f =>
    rw [show r = raised h f.message from congrArg (installed i · h) hroot]
    exact .inr ⟨⟨_, rfl⟩, hsettled.lasts⟩
  | ok e =>
    have hr : r = reply h ((i e).run .top) fun _ _ => .ok () := congrArg (installed i · h) hroot
    have hrun : (∃ h' m slots, outcome (Installation.of c e).run h = (.ok .undefined, h') ∧ c.Stands m slots h') ∨
        ∃ t h', outcome (Installation.of c e).run h = (.error t, h') ∧ c.Lasts h h' := by
      rcases hsettled with hvacant | ⟨m, slots, hstands⟩
      · exact (Installation.outcome_run_vacant hdistinct hroot hvacant).imp
          (fun ⟨h', m, root, hrun, hstands⟩ => ⟨h', m, [root], hrun, hstands⟩)
          fun ⟨t, h', hrun, hvacant'⟩ => ⟨t, h', hrun, .inl hvacant'⟩
      · exact (Installation.outcome_run_stands hdistinct hroot hstands).imp
          (fun ⟨h', m', root, hrun, hstands'⟩ => ⟨h', m', [root], hrun, hstands'⟩)
          fun ⟨t, h', hrun, hstands'⟩ => ⟨t, h', hrun, .inr ⟨m, slots, slots, hstands, List.prefix_rfl, hstands'⟩⟩
    rcases hrun with ⟨h', m, slots, hrun, hstands⟩ | ⟨t, h', hrun, hlasts⟩ <;> rw [← hi e] at hrun
    · rw [hr, reply_of_ok hrun]
      exact .inl ⟨rfl, .inr ⟨m, slots, hstands⟩⟩
    · rw [hr, reply_of_error hrun]
      exact .inr ⟨⟨_, rfl⟩, hlasts⟩

namespace Config

theorem Vacant.absent (hdistinct : c.Distinct) (hvacant : c.Vacant h) : c.hasTable h = false := by
  have hproto := (Installation.Named.not_mem hdistinct.table).2
  rw [hasTable, Heap.get, hvacant.find?_none (.head _)]
  dsimp only
  rw [if_neg (by simp [hproto])]
  rfl

theorem Stands.present (hstands : c.Stands m slots h) : c.hasTable h = true ∧ c.hasConverter h = true := by
  obtain ⟨t, ht, harray, -⟩ := hstands.guarded.table
  obtain ⟨f, hf, hcode⟩ := hstands.converter
  refine ⟨?_, ?_⟩
  · rw [hasTable, hstands.table.holds.get_eq, ht]
    exact harray.isArray
  · rw [hasConverter, hf.holds.get_eq, Heap.isCallable, Heap.codeOf?, hcode]
    rfl

end Config

namespace Session

variable {d : Desk Heap}

/-- After an operation of a session the table has lasted, or it is the next generation of the session. -/
def Passes (d d' : Desk Heap) : Prop :=
  d'.session = d.session ∧ d.session.config.Lasts d.state d'.state ∨
    d'.session = d.session.next ∧ d.session.config.Settled d'.state

theorem install_passes (hdistinct : d.session.config.Distinct) (hsettled : d.session.config.Settled d.state) :
    Passes d (outcome (install engine) d).2 := by
  have hreply := Embedded.installed_settles hdistinct hsettled
    (i := fun root => .install (.of d.session.config root)) fun _ => rfl
  rw [← Embedded.execute_install hdistinct.sound hdistinct.unambiguous] at hreply
  have hexecute := Work.outcome_execute engine (Bootstrap.install d.session.config) d
  rw [install, outcome_bind_ok (Work.outcome_session d)]
  -- from here on it does not matter what the script is
  generalize engine.execute (Bootstrap.install d.session.config) d.state = reply at hexecute hreply
  rcases hreply with ⟨hok, hsettled'⟩ | ⟨⟨f, herror⟩, hlasts⟩
  · rw [hok] at hexecute
    rw [outcome_bind_ok hexecute]
    exact .inr ⟨rfl, hsettled'⟩
  · rw [herror] at hexecute
    rw [outcome_bind_error hexecute]
    exact .inl ⟨rfl, hlasts⟩

theorem ensureInstalled_passes (hdistinct : d.session.config.Distinct) (hsettled : d.session.config.Settled d.state) :
    Passes d (outcome (ensureInstalled engine) d).2 := by
  rcases hsettled with hvacant | ⟨m, slots, hstands⟩
  · have hfoundations := hvacant.secure.foundations
    have hreply := Embedded.installed_settles hdistinct (.inl hvacant)
      (i := fun root => .installUnless (isArrayExpr d.session.config.tableName) (.of d.session.config root)) fun e => by
        rw [Program.outcome_installUnless hfoundations, hvacant.absent hdistinct, if_neg Bool.false_ne_true]
    rw [← Embedded.execute_guarded hdistinct.sound hdistinct.unambiguous] at hreply
    rcases outcome_ensureInstalled_absent hdistinct.sound hfoundations (by rw [hvacant.absent hdistinct, Bool.false_and]) with
      ⟨⟨e, d', hsession, hstate, hrun⟩, hfail⟩ | ⟨d', hsession, hstate, hrun, hok⟩ <;> rw [hrun]
    · obtain ⟨-, hlasts⟩ := hreply.resolve_left fun hdone => hfail hdone.1
      exact .inl ⟨hsession, hstate ▸ hlasts⟩
    · rcases hreply with ⟨-, hsettled'⟩ | ⟨⟨f, hfail⟩, -⟩
      · exact .inr ⟨hsession, hstate ▸ hsettled'⟩
      · rw [hok] at hfail
        cases hfail
  · obtain ⟨htable, hconverter⟩ := hstands.present
    obtain ⟨d', hsession, hstate, hrun⟩ := outcome_ensureInstalled_present hdistinct.sound hstands.guarded.foundations
      (by rw [htable, hconverter]; rfl)
    rw [hrun]
    by_cases hgeneration : d.session.generation = 0
    · rw [if_pos hgeneration] at hsession
      exact .inr ⟨hsession, hstate.symm ▸ .inr ⟨m, slots, hstands⟩⟩
    · rw [if_neg hgeneration] at hsession
      exact .inl ⟨hsession, hstate.symm ▸ Config.Settled.lasts (.inr ⟨m, slots, hstands⟩)⟩

end Session

end ScriptBridge
