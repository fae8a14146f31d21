import ScriptBridge.Proofs.GuardedConversion

/-! Conversion again and again. An object is given one token whenever it is converted, be it frozen or behind a proxy that
takes no tags, as long as no other object of the table is its rival: one whose tags go where its own go. -/
namespace ScriptBridge.Script

variable {h h' h'' h₁ h₂ h₃ : Heap} {m : Memory} {a b f g : Address} {n : Nat} {v : Value} {r : Except Thrown Value}
  {slots slots' : List Value} {this this' : Value} {args args' : List Value}

namespace Heap

/-- Different objects that take tags, in one and the same place. -/
structure Rivals (h : Heap) (a b : Address) : Prop where
  ne : a ≠ b
  storage : h.storage a = h.storage b
  takes : h.refuses a = false ∧ h.refuses b = false

/-- An object has no rival in the slots of a table. -/
def Unrivalled (h : Heap) (slots : List Value) (a : Address) : Prop := ∀ b, .object b ∈ slots → ¬h.Rivals a b

theorem refuses_eq (h : Heap) (a : Address) : h.refuses a = match (h.object a).kind.proxy? with
    | some (t, .forward) => if t < a then h.refuses t else true
    | some (_, .decline) | some (_, .throw _) => true
    | _ => false := by
  rw [refuses]
  cases (h.object a).kind with
  | proxy t trap => cases trap <;> rfl
  | _ => rfl

theorem refuses_congr (hproxy : ∀ b ≤ a, (h'.object b).kind.proxy? = (h.object b).kind.proxy?) :
    h'.refuses a = h.refuses a := by
  induction a using Nat.strongRecOn with
  | ind a ih =>
    rw [refuses_eq, refuses_eq, hproxy a le_rfl]
    split
    · rename_i t _
      by_cases ht : t < a
      · rw [if_pos ht, if_pos ht, ih t ht fun b hb => hproxy b (hb.trans ht.le)]
      · rw [if_neg ht, if_neg ht]
    · rfl
    · rfl
    · rfl

/-- Objects that keep their own tags are no rivals: frozen and sealed ones, and proxies that take no tags. -/
theorem unrivalled_of_proxies_refuse (ha : h.isProxy a = true → h.refuses a = true)
    (hproxies : ∀ b, .object b ∈ slots → h.isProxy b = true → h.refuses b = true) : h.Unrivalled slots a := by
  rintro b hb ⟨hne, hstorage, htakes⟩
  have hplain {c : Address} (hc : h.isProxy c = true → h.refuses c = true) (hrefuses : h.refuses c = false) :
      h.isProxy c = false :=
    Bool.eq_false_iff.2 fun hproxy => Bool.eq_false_iff.1 hrefuses (hc hproxy)
  rw [storage_of_not_isProxy (hplain ha htakes.1), storage_of_not_isProxy (hplain (hproxies b hb) htakes.2)] at hstorage
  exact hne hstorage

/-- What is no rival stays none, and what has no rivals among more slots has none among fewer. -/
theorem Unrivalled.anti (hlonger : slots <+: slots') (ha : .object a ∈ slots)
    (hbehind : ∀ b, .object b ∈ slots → h'.storage b = h.storage b ∧ h'.refuses b = h.refuses b)
    (hunrivalled : h'.Unrivalled slots' a) : h.Unrivalled slots a := by
  rintro b hb ⟨hne, hstorage, htakes⟩
  obtain ⟨hsa, hra⟩ := hbehind a ha
  obtain ⟨hsb, hrb⟩ := hbehind b hb
  exact hunrivalled b (hlonger.subset hb) ⟨hne, hsa.trans (hstorage.trans hsb.symm), hra.trans htakes.1, hrb.trans htakes.2⟩

end Heap

namespace Memory

/-- What pages do that respects a table: they spare it, leave all tags as they are, and the objects in it behind the proxies
that they are behind. -/
structure Respects (m : Memory) (h h' : Heap) : Prop extends m.Spares h h' where
  same : ∀ a, (h'.own? a (.ofText m.tag)).map Property.value = (h.own? a (.ofText m.tag)).map Property.value
  behind : ∀ a, .object a ∈ m.held h → h'.storage a = h.storage a ∧ h'.refuses a = h.refuses a

/-- An object is found again: it has one slot at most and is recalled by it, and by the map where it takes no tags. -/
structure Retains (m : Memory) (h : Heap) (slots : List Value) (a : Address) : Prop where
  unique : ∀ i j : Nat, slots[i]? = some (.object a) → slots[j]? = some (.object a) → i = j
  recalls : ∀ n : Nat, slots[n]? = some (.object a) → m.Recalls h a n
  refused : h.refuses a = true → ∀ n : Nat, slots[n]? = some (.object a) → m.known h (.object a) = .nat n

theorem Retains.of_not_mem (ha : .object a ∉ slots) : m.Retains h slots a where
  unique _ _ hi _ := absurd (List.mem_of_getElem? hi) ha
  recalls _ hn := absurd (List.mem_of_getElem? hn) ha
  refused _ _ hn := absurd (List.mem_of_getElem? hn) ha

end Memory

/-- A guarded table that finds every object again that has no rivals in it, while there is room. -/
structure Attentive (m : Memory) (h : Heap) (slots : List Value) : Prop extends Guarded m h slots where
  retains : slots.length < Key.indexBound → ∀ a, h.Unrivalled slots a → m.Retains h slots a

/-- What a longer list has it had before, or it is the item at the end. -/
private theorem slot_of_concat (hn : (slots ++ [.object a])[n]? = some (.object b)) :
    slots[n]? = some (.object b) ∨ n = slots.length ∧ b = a := by
  by_cases hlt : n < slots.length
  · rw [List.getElem?_append_left hlt] at hn
    exact .inl hn
  · have hlength := (List.getElem?_eq_some_iff.1 hn).1
    rw [List.length_append, List.length_singleton] at hlength
    obtain rfl : n = slots.length := by omega
    rw [List.getElem?_concat_length] at hn
    exact .inr ⟨rfl, (Value.object.inj (Option.some.inj hn)).symm⟩

namespace Attentive

theorem respects (hattentive : Attentive m h slots) (hrespects : m.Respects h h') : Attentive m h' slots where
  toGuarded := hattentive.toGuarded.spares hrespects.toSpares
  retains hroom a hunrivalled := by
    by_cases ha : .object a ∈ slots
    · have hbehind (b : Address) (hb : .object b ∈ slots) := hrespects.behind b (hattentive.held_eq.symm ▸ hb)
      have hretains := hattentive.retains hroom a (hunrivalled.anti List.prefix_rfl ha hbehind)
      have hknown : m.known h' (.object a) = m.known h (.object a) := Memory.known_congr hrespects.map _
      refine ⟨hretains.unique, fun n hn => ?_, fun hrefuses n hn => ?_⟩
      · rcases hretains.recalls n hn with ⟨p, hp, hsame⟩ | hvalue
        · have htag := hrespects.same a
          rw [hp, Option.map_some, Option.map_eq_some_iff] at htag
          obtain ⟨q, hq, hvalue⟩ := htag
          exact .inl ⟨q, hq, hvalue ▸ hsame⟩
        · exact .inr (hknown.trans hvalue)
      · rw [(hbehind a ha).2] at hrefuses
        exact hknown.trans (hretains.refused hrefuses n hn)
    · exact .of_not_mem ha

/-- A table that gives its next slot to an object finds that object again, and those that are no rivals of it. -/
theorem append (hattentive : Attentive m h slots) {t : Address} (ht : m.table = .object t) (harray : h.isArray a = false)
    (hroom : slots.length < Key.indexBound) (hmarks : Marks m h h')
    (hentered : Entered m (.object a) slots.length (h.push t slots.length (.object a)) h')
    (hremembered : Remembered m a slots.length (h.push t slots.length (.object a)) h')
    (hnew : ∀ n < Key.indexBound, slots[n]? = some (.object a) → ¬m.Recalls h a n) :
    Attentive m h' (slots ++ [.object a]) where
  toGuarded := hattentive.toGuarded.append ht harray hroom hmarks hentered
  retains _ b hunrivalled := by
    have hkind := (hattentive.arrayOf_table ht).kind
    have hmap : m.untagged ≠ .object t :=
      hattentive.untagged_ne (by rw [Heap.isProxy, hkind]) (hattentive.arrayOf_table ht).isArray
    have hbehind (c : Address) : h'.storage c = h.storage c ∧ h'.refuses c = h.refuses c :=
      ⟨hmarks.storage c, Heap.refuses_congr fun d _ => (hmarks.object d).kind.proxy?⟩
    have hpushed (c : Address) : (h.push t slots.length (.object a)).storage c = h.storage c ∧
        (h.push t slots.length (.object a)).refuses c = h.refuses c :=
      ⟨Heap.push_storage ⟨_, _, hkind⟩ c, Heap.refuses_congr fun d _ => Heap.push_proxy? ⟨_, _, hkind⟩ d⟩
    have hbefore (hb : .object b ∈ slots) : m.Retains h slots b :=
      hattentive.retains hroom b (hunrivalled.anti (List.prefix_append _ _) hb fun c _ => hbehind c)
    by_cases hba : b = a
    · subst hba
      have hnone : .object b ∉ slots := by
        intro hb
        obtain ⟨n, hn⟩ := List.getElem?_of_mem hb
        exact hnew n ((List.getElem?_eq_some_iff.1 hn).1.trans hroom) hn ((hbefore hb).recalls n hn)
      have hlast {n : Nat} (hn : (slots ++ [.object b])[n]? = some (.object b)) : n = slots.length :=
        (slot_of_concat hn).elim (fun hold => absurd (List.mem_of_getElem? hold) hnone) And.left
      refine ⟨fun i j hi hj => (hlast hi).trans (hlast hj).symm, fun n hn => ?_, fun hrefuses n hn => ?_⟩
      · rw [hlast hn]
        exact hremembered.recalls
      · rw [hlast hn]
        exact (hremembered.refused ((hpushed b).2.trans ((hbehind b).2.symm.trans hrefuses))).1
    · have hold {n : Nat} (hn : (slots ++ [.object a])[n]? = some (.object b)) : slots[n]? = some (.object b) :=
        (slot_of_concat hn).resolve_right fun hlast => hba hlast.2
      have hknown : m.known h' (.object b) = m.known h (.object b) := by
        rw [hremembered.known b hba, Memory.known_congr fun u hu => ?_]
        rw [Heap.push_of_ne fun heq => hmap (hu.trans (congrArg Value.object heq))]
      refine ⟨fun i j hi hj => ?_, fun n hn => ?_, fun hrefuses n hn => ?_⟩
      · exact (hbefore (List.mem_of_getElem? (hold hi))).unique i j (hold hi) (hold hj)
      · have hretains := hbefore (List.mem_of_getElem? (hold hn))
        rcases hretains.recalls n (hold hn) with ⟨p, hp, hsame⟩ | hvalue
        · by_cases hrefuses : h.refuses b = true
          · exact .inr (hknown.trans (hretains.refused hrefuses n (hold hn)))
          -- The tag would be written over by that of the new object only if that took it in the same place.
          have htag : h'.own? b (.ofText m.tag) = (h.push t slots.length (.object a)).own? b (.ofText m.tag) := by
            by_cases hrefuses' : (h.push t slots.length (.object a)).refuses a = true
            · exact (hremembered.refused hrefuses').2 b
            · refine hremembered.tags b fun hstorage => hunrivalled a (List.mem_append_right _ (List.mem_singleton_self _)) ⟨hba, ?_, ?_⟩
              · rwa [(hbehind b).1, (hbehind a).1, ← (hpushed b).1, ← (hpushed a).1]
              · rw [(hbehind b).2, (hbehind a).2, ← (hpushed a).2]
                exact ⟨Bool.eq_false_iff.2 hrefuses, Bool.eq_false_iff.2 hrefuses'⟩
          rw [Heap.push_own? ⟨_, _, hkind⟩ hattentive.clear.length hattentive.clear.name] at htag
          exact .inl ⟨p, htag.trans hp, hsame⟩
        · exact .inr (hknown.trans hvalue)
      · rw [(hbehind b).2] at hrefuses
        exact hknown.trans ((hbefore (List.mem_of_getElem? (hold hn))).refused hrefuses n (hold hn))

theorem registered {invoke : Caller} (hinvoke : Run.Within 2 invoke) (hattentive : Attentive m h slots)
    (harray : h.isArray a = false) : ∃ slots', slots <+: slots' ∧
      Attentive m (outcome (Converter.register invoke m (.object a)) h).2 slots' := by
  obtain ⟨t, ht, -⟩ := hattentive.table
  rcases Converter.register_cases hinvoke hattentive.toGuarded a with ⟨v, hrun, -⟩ | ⟨hrun, hnew⟩ <;> rw [hrun]
  · exact ⟨slots, List.prefix_rfl, hattentive⟩
  by_cases hroom : slots.length < Key.indexBound
  · obtain ⟨h', happend, hmarks, hentered, hremembered⟩ :=
      Converter.outcome_append_slot hinvoke hattentive.toSlotted ht hroom a
    rw [happend]
    exact ⟨_, List.prefix_append _ _, hattentive.append ht harray hroom hmarks hentered hremembered hnew⟩
  · have hmarks := (Converter.leaves_append hinvoke hattentive.clear hattentive.toServed ht (hattentive.isTable ht) a).1
    exact ⟨slots, List.prefix_rfl, hattentive.toGuarded.full hmarks (Nat.le_of_not_lt hroom), fun hlt => absurd hlt hroom⟩

theorem stride (hattentive : Attentive m h slots) (hstride : m.Stride h h') : ∃ slots', slots <+: slots' ∧
    Attentive m h' slots' := by
  cases hstride with
  | registered hinvoke harray => exact hattentive.registered hinvoke harray
  | @allocated n =>
    let o : Object := { kind := .array n true, proto := some Heap.arrayProto }
    have hproxy (b : Address) : ((h.alloc o).1.object b).kind.proxy? = (h.object b).kind.proxy? := by
      rcases Nat.lt_trichotomy b h.objects.size with hb | rfl | hb
      · rw [Heap.object_alloc_of_lt o hb]
      · rw [Heap.object_alloc_self, Heap.object_of_size_le le_rfl]
        rfl
      · rw [Heap.object_of_size_le (by rw [Heap.size_alloc]; exact hb), Heap.object_of_size_le hb.le]
    exact ⟨slots, List.prefix_rfl, hattentive.respects ⟨hattentive.spares_of_alloc n, (hattentive.undisturbed_of_alloc n).tags,
      fun a _ => ⟨Heap.storage_congr fun b _ => hproxy b, Heap.refuses_congr fun b _ => hproxy b⟩⟩⟩
  | @stored c n i w hkind hproto htable _ invoke v =>
    obtain ⟨hrefilled, -⟩ := Run.refilled_store hkind invoke i v
    refine ⟨slots, List.prefix_rfl, hattentive.respects ⟨hattentive.spares_of_refilled hproto htable hrefilled,
      (hattentive.undisturbed_of_refilled hproto htable hrefilled).tags, fun a _ => ⟨hrefilled.storage a, ?_⟩⟩⟩
    exact Heap.refuses_congr fun b _ => hrefilled.proxy? b

theorem strides (hattentive : Attentive m h slots) (hstrides : m.Strides h h') : ∃ slots', slots <+: slots' ∧
    Attentive m h' slots' := by
  induction hstrides with
  | refl => exact ⟨slots, List.prefix_rfl, hattentive⟩
  | tail _ hstride ih =>
    obtain ⟨slots₁, hlonger₁, hattentive₁⟩ := ih
    obtain ⟨slots₂, hlonger₂, hattentive₂⟩ := hattentive₁.stride hstride
    exact ⟨slots₂, hlonger₁.trans hlonger₂, hattentive₂⟩

/-- Whatever is converted, the table finds its objects again. -/
theorem converted (hattentive : Attentive m h slots) (hsized : h.Sized) (hcode : h.code? f = some (.tool .convert m))
    (this : Value) (args : List Value) : (outcome (Run.invoke (.object f) this args) h).2.Sized ∧
      ∃ slots', slots <+: slots' ∧ Attentive m (outcome (Run.invoke (.object f) this args) h).2 slots' := by
  obtain ⟨inner, hinner, hrun⟩ := Converter.outcome_invoke hcode this args
  have hstrides := Converter.strides_convert hinner (Converter.fuelFor h) (v := args.headD .undefined)
    ⟨slots, hattentive.toGuarded⟩ hsized
  rw [hrun]
  exact ⟨(hstrides.passes ⟨slots, hattentive.toGuarded⟩).sized hsized, hattentive.strides hstrides⟩

/-- The token of an object without rivals is that of its only slot, and nothing is changed when it is given. -/
theorem token_of_slot (hattentive : Attentive m h slots) (hroom : slots.length < Key.indexBound)
    (hslot : slots[n]? = some (.object a)) (hunrivalled : h.Unrivalled slots a) (harray : h.isArray a = false)
    (hcode : h.code? f = some (.tool .convert m)) (this : Value) (args : List Value) :
    outcome (Run.invoke (.object f) this (.object a :: args)) h =
      (.ok (.text (m.scheme ++ String.ofList (Text.decimal n))), h) := by
  obtain ⟨inner, hinner, hrun⟩ := hattentive.outcome_invoke_object harray hcode this args
  have hretains := hattentive.retains hroom a hunrivalled
  rw [hrun]
  rcases Converter.register_cases hinner hattentive.toGuarded a with ⟨v, hregister, x, rfl, hnamed⟩ | ⟨-, hnew⟩
  · obtain ⟨k, htext, hk⟩ := hnamed hroom
    obtain rfl := hretains.unique k n hk hslot
    rw [Converter.token, outcome_bind_ok hregister, Converter.outcome_sum, htext]
    rfl
  · exact absurd (hretains.recalls n hslot) (hnew n ((List.getElem?_eq_some_iff.1 hslot).1.trans hroom) hslot)

end Attentive

namespace Installation.Finished

open Realm (addProperty)

variable {i : Installation} {root : Value}

/-- A root that takes no tags is known to the map. -/
theorem known_of_refuses (hfinished : Finished i m root h h') (ha : root = .object a) (hrefuses : h'.refuses a = true) :
    m.known h' (.object a) = .nat 0 := by
  obtain ⟨hbuilt, hmarks, -, hremembered, -, -⟩ := hfinished
  rename_i f h₀ h₁ p q
  have hkind (b : Address) : ((addProperty (addProperty h₁ Heap.global i.table p) Heap.global i.converter q).object b).kind =
      (h₁.object b).kind := by
    rw [(Realm.kind_addProperty _ _ _ _ b).1, (Realm.kind_addProperty _ _ _ _ b).1]
  have hbefore : h₀.refuses a = true := by
    rw [← hrefuses]
    refine (Heap.refuses_congr fun b _ => ?_).symm
    rw [hkind, (hmarks.object b).kind.proxy?]
  rw [Memory.known_congr (fun u _ => hkind u) _]
  exact ((hremembered a ha).refused hbefore).1

end Installation.Finished

namespace Memory

/-- A run of a table: its converter is called with values of any kind, and pages do what respects it. -/
inductive Leads (m : Memory) (h : Heap) : Heap → Prop
  | refl : m.Leads h h
  | converted {h' : Heap} {f : Address} (earlier : m.Leads h h') (code : h'.code? f = some (.tool .convert m))
      (this : Value) (args : List Value) : m.Leads h (outcome (Run.invoke (.object f) this args) h').2
  | respected {h' h'' : Heap} (earlier : m.Leads h h') (respects : m.Respects h' h'') (sized : h''.Sized) : m.Leads h h''

theorem Leads.trans (hleads : m.Leads h h') (hlater : m.Leads h' h'') : m.Leads h h'' := by
  induction hlater with
  | refl => exact hleads
  | converted _ hcode this args ih => exact ih.converted hcode this args
  | respected _ hrespects hsized ih => exact ih.respected hrespects hsized

/-- Tables find their objects again in all their runs. -/
theorem Leads.attentive (hleads : m.Leads h h') (hattentive : Attentive m h slots) (hsized : h.Sized) :
    h'.Sized ∧ ∃ slots', slots <+: slots' ∧ Attentive m h' slots' := by
  induction hleads with
  | refl => exact ⟨hsized, slots, List.prefix_rfl, hattentive⟩
  | converted _ hcode this args ih =>
    obtain ⟨hsized₁, slots₁, hlonger₁, hattentive₁⟩ := ih
    obtain ⟨hsized₂, slots₂, hlonger₂, hattentive₂⟩ := hattentive₁.converted hsized₁ hcode this args
    exact ⟨hsized₂, slots₂, hlonger₁.trans hlonger₂, hattentive₂⟩
  | respected _ hrespects hsized' ih =>
    obtain ⟨-, slots₁, hlonger₁, hattentive₁⟩ := ih
    exact ⟨hsized', slots₁, hlonger₁, hattentive₁.respects hrespects⟩

namespace Fresh

/-- A new table finds its root again. -/
theorem attentive (hfresh : m.Fresh h) : ∃ root, Attentive m h [root] := by
  obtain ⟨hdistinct, hsecure, hok, hnamed, hcode⟩ := hfresh
  obtain ⟨e, root, hfinished⟩ := Installation.finished_of_execute hdistinct.toClear hsecure.foundations hok hnamed hcode
  refine ⟨root, hfinished.guarded (hdistinct.named e) hsecure hdistinct.unused hdistinct.tagTable hdistinct.tagConverter,
    fun _ a _ => ?_⟩
  have hroot {n : Nat} (hn : [root][n]? = some (.object a)) : n = 0 ∧ root = .object a := by
    obtain ⟨hlt, hvalue⟩ := List.getElem?_eq_some_iff.1 hn
    obtain rfl : n = 0 := Nat.lt_one_iff.1 hlt
    exact ⟨rfl, hvalue⟩
  refine ⟨fun i j hi hj => (hroot hi).1.trans (hroot hj).1.symm, fun n hn => ?_, fun hrefuses n hn => ?_⟩ <;>
    obtain ⟨rfl, ha⟩ := hroot hn
  · exact hfinished.recalls hdistinct.tagTable hdistinct.tagConverter ha
  · exact hfinished.known_of_refuses ha hrefuses

private theorem led (hfresh : m.Fresh h) (hsized : h.Sized) (hleads : m.Leads h h') :
    h'.Sized ∧ Attentive m h' (m.held h') := by
  obtain ⟨root, hattentive⟩ := hfresh.attentive
  obtain ⟨hsized', slots, -, hattentive'⟩ := hleads.attentive hattentive hsized
  rw [hattentive'.held_eq]
  exact ⟨hsized', hattentive'⟩

/-- At every moment of a run an object without rivals has one token, that of its slot: the root object that of slot zero. -/
theorem token_of_slot (hfresh : m.Fresh h) (hsized : h.Sized) (hleads : m.Leads h h')
    (hroom : (m.held h').length < Key.indexBound) (hslot : (m.held h')[n]? = some (.object a))
    (hunrivalled : h'.Unrivalled (m.held h') a) (harray : h'.isArray a = false)
    (hcode : h'.code? f = some (.tool .convert m)) (this : Value) (args : List Value) :
    outcome (Run.invoke (.object f) this (.object a :: args)) h' =
      (.ok (.text (m.scheme ++ String.ofList (Text.decimal n))), h') :=
  (hfresh.led hsized hleads).2.token_of_slot hroom hslot hunrivalled harray hcode this args

/-- Conversion of an object is idempotent: whatever is converted in between, it gives what it gave, and changes nothing,
unless another object of the table is a rival. -/
theorem converts_again (hfresh : m.Fresh h) (hsized : h.Sized) (hearlier : m.Leads h h₁)
    (hcode : h₁.code? f = some (.tool .convert m)) (harray : h₁.isArray a = false)
    (hfirst : outcome (Run.invoke (.object f) this (.object a :: args)) h₁ = (r, h₂)) (hlater : m.Leads h₂ h₃)
    (hcode' : h₃.code? g = some (.tool .convert m)) (harray' : h₃.isArray a = false)
    (hroom : (m.held h₃).length < Key.indexBound) (hunrivalled : h₃.Unrivalled (m.held h₃) a) :
    outcome (Run.invoke (.object g) this' (.object a :: args')) h₃ = (r, h₃) := by
  have hbetween := hearlier.converted hcode this (.object a :: args)
  rw [hfirst] at hbetween
  obtain ⟨hsized₂, hattentive₂⟩ := hfresh.led hsized hbetween
  obtain ⟨-, slots, hlonger, hattentive₃⟩ := hlater.attentive hattentive₂ hsized₂
  rw [hattentive₃.held_eq] at hroom hunrivalled
  obtain ⟨n, h', htoken, -, hslot⟩ := (hfresh.led hsized hearlier).2.token_names_slot harray hcode this args
    (by rw [hfirst]; exact hlonger.length_le.trans_lt hroom)
  obtain ⟨rfl, rfl⟩ := Prod.mk.inj (htoken.symm.trans hfirst)
  exact hattentive₃.token_of_slot hroom (slot_of_longer hlonger hslot) hunrivalled harray' hcode' this' args'

/-- In particular where the proxies in the table take no tags, however they and the frozen objects refuse them. -/
theorem converts_again_of_proxies_refuse (hfresh : m.Fresh h) (hsized : h.Sized) (hearlier : m.Leads h h₁)
    (hcode : h₁.code? f = some (.tool .convert m)) (harray : h₁.isArray a = false)
    (hfirst : outcome (Run.invoke (.object f) this (.object a :: args)) h₁ = (r, h₂)) (hlater : m.Leads h₂ h₃)
    (hcode' : h₃.code? g = some (.tool .convert m)) (harray' : h₃.isArray a = false)
    (hroom : (m.held h₃).length < Key.indexBound) (ha : h₃.isProxy a = true → h₃.refuses a = true)
    (hproxies : ∀ b, .object b ∈ m.held h₃ → h₃.isProxy b = true → h₃.refuses b = true) :
    outcome (Run.invoke (.object g) this' (.object a :: args')) h₃ = (r, h₃) :=
  hfresh.converts_again hsized hearlier hcode harray hfirst hlater hcode' harray' hroom
    (Heap.unrivalled_of_proxies_refuse ha hproxies)

end Fresh

end Memory
end ScriptBridge.Script
