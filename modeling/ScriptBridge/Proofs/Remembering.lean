import ScriptBridge.Proofs.GlobalNames
import ScriptBridge.Proofs.Registration

/-! What remembering a handle leaves. The handle is found again, in the tag or in the map, and what is found for other
objects stays, but for the tags of those that share their properties with the object. -/
namespace ScriptBridge.Script

open Realm (addProperty)

variable {h h' : Heap} {m : Memory} {a b t u : Address} {k : Key} {n : Nat} {v w : Value} {x : String} {p : Property}

/-- The proxies in front of an object pass no definition on, and one of them says so. -/
def Heap.refuses (h : Heap) (a : Address) : Bool :=
  match (h.object a).kind with
  | .proxy t .forward => if t < a then h.refuses t else true
  | .proxy _ .decline | .proxy _ (.throw _) => true
  | _ => false
termination_by a

namespace Heap

/-- A definition that is refused changes nothing. -/
theorem define_of_refuses (hrefuses : h.refuses a = true) (k : Key) (d : Descriptor) :
    (h.define a k d).2 = h ∧ (h.define a k d).1 ≠ .accepted := by
  induction a using Nat.strongRecOn with
  | ind a ih =>
    unfold refuses at hrefuses
    unfold define
    split at hrefuses
    · rename_i t hkind
      rw [hkind]
      dsimp only
      split
      · rename_i ht
        rw [if_pos ht] at hrefuses
        exact ih t ht hrefuses
      · exact ⟨rfl, nofun⟩
    · rename_i t hkind
      rw [hkind]
      exact ⟨rfl, nofun⟩
    · rename_i t message hkind
      rw [hkind]
      exact ⟨rfl, nofun⟩
    · cases hrefuses

end Heap

/-- The heap after a definition of the tag. -/
def Memory.tagged (m : Memory) (h : Heap) (a : Address) (n : Nat) : Heap :=
  (h.define a (.ofText m.tag) (Converter.tagDescriptor (.nat n))).2

namespace Memory

/-- A tag is seen only where the properties of its object are. -/
theorem tagged_own? (hclear : ClearTag m.tag) (n : Nat) (hb : h.storage b ≠ h.storage a) :
    (m.tagged h a n).own? b (.ofText m.tag) = h.own? b (.ofText m.tag) := by
  obtain ⟨y, hy⟩ := hclear.name
  have hdefine := Heap.define_name (hy ▸ hclear.length) (d := Converter.tagDescriptor (.nat n)) rfl h a
  rw [← hy] at hdefine
  rcases hdefine with hsame | ⟨p, hput, -⟩
  · rw [tagged, hsame]
  · rw [tagged, hput]
    exact Realm.own?_addProperty_of_storage_ne m.tag p hb _

theorem tagged_of_refuses (hrefuses : h.refuses a = true) (n : Nat) : m.tagged h a n = h :=
  (Heap.define_of_refuses hrefuses _ _).1

theorem known_congr (hkind : ∀ u, m.untagged = .object u → (h'.object u).kind = (h.object u).kind) (v : Value) :
    m.known h' v = m.known h v := by
  unfold known
  cases hu : m.untagged with
  | object u => simp only [hkind u hu]
  | _ => rfl

theorem tagged_known (hclear : ClearTag m.tag) (h : Heap) (a : Address) (n : Nat) (v : Value) :
    m.known (m.tagged h a n) v = m.known h v := by
  refine known_congr (fun u _ => ?_) v
  obtain ⟨y, hy⟩ := hclear.name
  have hdefine := Heap.define_name (hy ▸ hclear.length) (d := Converter.tagDescriptor (.nat n)) rfl h a
  rw [← hy] at hdefine
  rcases hdefine with hsame | ⟨p, hput, -⟩
  · rw [tagged, hsame]
  · rw [tagged, hput]
    exact (Realm.kind_addProperty h _ m.tag p u).1

end Memory

/-- The handle of an object is found, in its own tag or in the map. -/
def Memory.Recalls (m : Memory) (h : Heap) (a : Address) (n : Nat) : Prop :=
  (∃ p, h.own? a (.ofText m.tag) = some p ∧ p.value.same (.nat n) = true) ∨ m.known h (.object a) = .nat n

/-- The handle of an object is found again; in the map where its definitions are refused. For other objects the map
says what it said, and so do their tags where they are not those of the object. -/
structure Remembered (m : Memory) (a : Address) (n : Nat) (h h' : Heap) : Prop where
  recalls : m.Recalls h' a n
  refused : h.refuses a = true → m.known h' (.object a) = .nat n ∧
    ∀ b, h'.own? b (.ofText m.tag) = h.own? b (.ofText m.tag)
  tags : ∀ b, h.storage b ≠ h.storage a → h'.own? b (.ofText m.tag) = h.own? b (.ofText m.tag)
  known : ∀ b, b ≠ a → m.known h' (.object b) = m.known h (.object b)

/-- What remembering a handle changes: the tag of a value that is an object, and the map. -/
structure Entered (m : Memory) (v : Value) (n : Nat) (h h' : Heap) : Prop where
  object : ∀ b, (∀ a, v = .object a → b ≠ h.storage a) → m.untagged ≠ .object b → h'.object b = h.object b
  property : ∀ b k, k ≠ .ofText m.tag → (h'.object b).property? k = (h.object b).property? k
  tags : ∀ b p, h'.own? b (.ofText m.tag) = some p → h.own? b (.ofText m.tag) = some p ∨ p.value = .nat n
  map : ∀ u es, m.untagged = .object u → (h.object u).kind = .map es →
    ∃ es', (h'.object u).kind = .map es' ∧ ∀ e ∈ es', e ∈ es ∨ e.2 = .nat n

theorem Entered.refl (m : Memory) (v : Value) (n : Nat) (h : Heap) : Entered m v n h h :=
  ⟨fun _ _ _ => rfl, fun _ _ _ => rfl, fun _ _ => .inl, fun _ es _ hkind => ⟨es, hkind, fun _ => .inl⟩⟩

theorem Entered.object_of_ne (hentered : Entered m (.object a) n h h') (hproxy : h.isProxy a = false) (hba : b ≠ a)
    (hbu : m.untagged ≠ .object b) : h'.object b = h.object b :=
  hentered.object b (fun _ heq => by rwa [← Value.object.inj heq, Heap.storage_of_not_isProxy hproxy]) hbu

/-- Where a value is defined under a tag, the tags are those that there were, or that value. -/
theorem ClearTag.own?_define {tag : String} (hclear : ClearTag tag) {d : Descriptor} (hd : d.value = some v) (h : Heap)
    (a : Address) (hp : (h.define a (.ofText tag) d).2.own? b (.ofText tag) = some p) :
    h.own? b (.ofText tag) = some p ∨ p.value = v := by
  obtain ⟨x, hx⟩ := hclear.name
  have hdefine := Heap.define_name (hx ▸ hclear.length) hd h a
  rw [← hx] at hdefine
  rcases hdefine with hsame | ⟨q, hput, hq⟩
  · rw [hsame] at hp
    exact .inl hp
  · rw [hput] at hp
    change (addProperty h (h.storage a) tag q).own? b (.ofText tag) = some p at hp
    by_cases hba : h.storage b = h.storage a
    · by_cases hmade : h.storage a < h.objects.size
      · rw [Heap.own?_of_ne_length hclear.length, Realm.stored_addProperty, hba, Realm.object_addProperty_self hmade,
          Object.property?_put, if_pos rfl] at hp
        obtain rfl := Option.some.inj hp
        exact .inr hq
      · rw [addProperty, Heap.setObject_of_size_le _ (Nat.le_of_not_lt hmade)] at hp
        exact .inl hp
    · rw [Realm.own?_addProperty_of_storage_ne _ _ hba] at hp
      exact .inl hp

/-- A tag is put behind the proxies of its object, and nowhere else. -/
theorem Memory.tagged_entered (hclear : ClearTag m.tag) (h : Heap) (a : Address) (n : Nat) :
    Entered m (.object a) n h (m.tagged h a n) := by
  have htags (b : Address) (q : Property) := hclear.own?_define (b := b) (p := q) (d := Converter.tagDescriptor (.nat n)) rfl h a
  obtain ⟨x, hx⟩ := hclear.name
  have hdefine := Heap.define_name (hx ▸ hclear.length) (d := Converter.tagDescriptor (.nat n)) rfl h a
  rw [← hx] at hdefine
  rcases hdefine with hsame | ⟨p, hput, -⟩
  · rw [tagged, hsame]
    exact .refl m _ n h
  · rw [hput] at htags
    rw [tagged, hput]
    exact ⟨fun b hb _ => Heap.object_setObject_of_ne _ (hb a rfl),
      fun b k hk => Realm.property?_addProperty_of_ne h _ p hk b, htags,
      fun u es _ hkind => ⟨es, (Realm.kind_addProperty h _ m.tag p u).1.trans hkind, fun _ => .inl⟩⟩

/-- The map takes the handle of a value. -/
theorem Entered.mapSet {entries : List (Value × Value)} (hclear : ClearTag m.tag) (hu : m.untagged = .object u)
    (hkind : (h'.object u).kind = .map entries) (hentered : Entered m v n h h') : Entered m v n h (h'.setObject u
      { h'.object u with kind := .map ((v, .nat n) :: entries.filter fun e => !e.1.same v) }) where
  object b hb hbu := by
    rw [Heap.object_setObject_of_ne _ fun heq : b = u => hbu (heq ▸ hu)]
    exact hentered.object b hb hbu
  property b k hk := by
    rw [← hentered.property b k hk]
    by_cases hbu : b = u
    · subst hbu
      rw [Heap.object_setObject_self _ (Heap.lt_size_of_map hkind)]
      cases k <;> rfl
    · rw [Heap.object_setObject_of_ne _ hbu]
  tags b p hp := by
    have hown := Heap.own?_setObject (h := h') (b := u) (a := b) hclear.length
      (o := { h'.object u with kind := .map ((v, .nat n) :: entries.filter fun e => !e.1.same v) })
      (by rw [hkind]; rfl) rfl
    exact hentered.tags b p (hown.symm.trans hp)
  map u' es hu' hes := by
    obtain rfl : u' = u := Value.object.inj (hu'.symm.trans hu)
    obtain ⟨es', hkind', hes'⟩ := hentered.map u' es hu hes
    obtain rfl : es' = entries := Kind.map.inj (hkind'.symm.trans hkind)
    refine ⟨_, by rw [Heap.object_setObject_self _ (Heap.lt_size_of_map hkind)], fun e he => ?_⟩
    rcases List.mem_cons.1 he with rfl | he
    · exact .inr rfl
    · exact hes' e (List.mem_of_mem_filter he)

namespace Converter

open Run (Leaves Within)

variable {invoke : Caller}

/-- The tag is defined, or the definition throws. -/
theorem outcome_defineTag (hserved : Served m h) (invoke : Caller) (a : Address) (n : Nat) :
    ∃ r, outcome (defineTag invoke m (.object a) (.nat n)) h = (r, m.tagged h a n) ∧
      (r = .ok () → (h.define a (.ofText m.tag) (tagDescriptor (.nat n))).1 = .accepted) := by
  obtain ⟨f, -, -, hf, ⟨g, hg, hcode⟩, -⟩ := hserved.foundations.object
  have hcode' : h.codeOf? (.object g) = some (.builtin .defineProperty) := hcode
  rw [defineTag, outcome_bind_ok (Run.outcome_global hf), outcome_bind_ok (Run.outcome_read_object f _ h),
    outcome_bind_ok (outcome_get h), hg.get_eq, if_pos hcode']
  have hdefine : outcome (Run.define a (.ofText m.tag) (tagDescriptor (.nat n))) h =
      (.ok (h.define a (.ofText m.tag) (tagDescriptor (.nat n))).1, m.tagged h a n) := rfl
  rw [Run.defineProperty, outcome_bind_ok hdefine]
  cases (h.define a (.ofText m.tag) (tagDescriptor (.nat n))).1 with
  | accepted => exact ⟨_, rfl, fun _ => rfl⟩
  | _ => exact ⟨_, rfl, nofun⟩

/-- A tag that can be read back is there, and was defined. -/
theorem outcome_tag (hinvoke : Within 2 invoke) (hclear : ClearTag m.tag) (hserved : Served m h) (hn : n < 2 ^ 32)
    (a : Address) : ∃ done, outcome (tag invoke m (.object a) (.nat n)) h = (.ok done, m.tagged h a n) ∧
      (done = true → (h.define a (.ofText m.tag) (tagDescriptor (.nat n))).1 = .accepted ∧
        ∃ p, (m.tagged h a n).own? a (.ofText m.tag) = some p ∧ p.value.same (.nat n) = true) := by
  obtain ⟨r, hdefine, haccepted⟩ := outcome_defineTag hserved invoke a n
  have hmarks := (leaves_defineTag invoke hclear hserved hn (.object a)).1
  rw [hdefine] at hmarks
  have htried : outcome (tryCatch (do defineTag invoke m (.object a) (.nat n); pure true) fun _ => pure false) h =
      (.ok r.isOk, m.tagged h a n) := by
    rw [outcome_tryCatch, outcome_bind, hdefine]
    cases r <;> rfl
  rw [tag, outcome_bind_ok htried]
  cases r with
  | error e => exact ⟨false, rfl, nofun⟩
  | ok _ =>
    have hhas := outcome_hasTag hinvoke (hserved.marks hmarks hclear).works a
    rw [show Except.isOk (.ok () : Except Thrown Unit) = true from rfl, if_pos rfl, outcome_bind_ok hhas]
    cases hown : (m.tagged h a n).own? a (.ofText m.tag) with
    | none => exact ⟨false, rfl, nofun⟩
    | some p =>
      have hread := outcome_readTag m a (m.tagged h a n)
      rw [Heap.get_of_find? (Heap.find?_of_own? hown)] at hread
      rw [Option.isSome_some, if_pos rfl, outcome_bind_ok hread]
      exact ⟨p.value.same (.nat n), rfl, fun hsame => ⟨haccepted rfl, p, rfl, hsame⟩⟩

/-- Values that are no objects take no tag. -/
private theorem outcome_tag_value (hserved : Served m h) (hv : ∀ a, v ≠ .object a) (invoke : Caller) (w : Value) :
    outcome (tag invoke m v w) h = (.ok false, h) := by
  obtain ⟨f, -, -, hf, ⟨g, hg, hcode⟩, -⟩ := hserved.foundations.object
  have hcode' : h.codeOf? (.object g) = some (.builtin .defineProperty) := hcode
  have hdefine : outcome (defineTag invoke m v w) h = (.error (.error (.text "not an object")), h) := by
    rw [defineTag, outcome_bind_ok (Run.outcome_global hf), outcome_bind_ok (Run.outcome_read_object f _ h),
      outcome_bind_ok (outcome_get h), hg.get_eq, if_pos hcode']
    · rfl
    · exact hv
  have htried : outcome (tryCatch (do defineTag invoke m v w; pure true) fun _ => pure false) h = (.ok false, h) := by
    rw [outcome_tryCatch, outcome_bind, hdefine]
    rfl
  rw [tag, outcome_bind_ok htried]
  rfl

/-- What the map says after it has taken a handle. -/
private theorem known_mapSet {entries : List (Value × Value)} (hu : m.untagged = .object u)
    (hkind : (h.object u).kind = .map entries) (hh : h' = h.setObject u
      { h.object u with kind := .map ((.object a, .nat n) :: entries.filter fun e => !e.1.same (.object a)) }) :
    m.known h' (.object a) = .nat n ∧ ∀ b, b ≠ a → m.known h' (.object b) = m.known h (.object b) := by
  have hkind' : (h'.object u).kind =
      .map ((.object a, .nat n) :: entries.filter fun e => !e.1.same (.object a)) := by
    rw [hh, Heap.object_setObject_self _ (Heap.lt_size_of_map hkind)]
  refine ⟨?_, fun b hb => ?_⟩
  · simp [Memory.known, hu, hkind', Value.same]
  · have hother : (fun e : Value × Value => !decide (e.1 = .object a) && decide (e.1 = .object b)) =
        fun e => decide (e.1 = .object b) := by
      funext e
      by_cases he : e.1 = .object b
      · simp [he, hb]
      · simp [he]
    simp [Memory.known, hu, hkind, hkind', Value.same, hb.symm, List.find?_filter, hother]

private theorem outcome_remember_object (hinvoke : Within 2 invoke) (hclear : ClearTag m.tag) (hserved : Served m h)
    (hn : n < 2 ^ 32) (a : Address) : ∃ h', outcome (remember invoke m (.object a) (.nat n)) h = (.ok (), h') ∧
      Entered m (.object a) n h h' ∧ Remembered m a n h h' := by
  obtain ⟨done, htag, hdone⟩ := outcome_tag hinvoke hclear hserved hn a
  have hmarks := (leaves_tag hinvoke hclear hserved hn (.object a)).1
  rw [htag] at hmarks
  have htags (b : Address) (hb : h.storage b ≠ h.storage a) := Memory.tagged_own? hclear n hb
  have hknown := Memory.tagged_known hclear h a n
  have hentered := m.tagged_entered hclear h a n
  rw [remember, outcome_bind_ok htag]
  cases done with
  | true =>
    obtain ⟨haccepted, hown⟩ := hdone rfl
    refine ⟨_, rfl, hentered, .inl hown, fun hrefuses => ?_, htags, fun b _ => hknown _⟩
    exact absurd haccepted (Heap.define_of_refuses hrefuses _ _).2
  | false =>
    obtain ⟨u, entries, hu, hkind, hset⟩ :=
      outcome_mapSet (hinvoke.mono (by decide)) (hserved.marks hmarks hclear).works (.object a) (.nat n)
    obtain ⟨hself, hother⟩ := known_mapSet (m := m) hu hkind rfl
    have hown (b : Address) := Heap.own?_setObject (h := m.tagged h a n) (b := u) (a := b) hclear.length
      (o := { (m.tagged h a n).object u with
        kind := .map ((.object a, .nat n) :: entries.filter fun e => !e.1.same (.object a)) })
      (by rw [hkind]; rfl) rfl
    refine ⟨_, by rw [if_neg Bool.false_ne_true, outcome_bind_ok hset]; rfl, hentered.mapSet hclear hu hkind, .inr hself,
      fun hrefuses => ⟨hself, fun b => ?_⟩, fun b hb => (hown b).trans (htags b hb),
      fun b hb => (hother b hb).trans (hknown _)⟩
    rw [hown, Memory.tagged_of_refuses hrefuses]

/-- Remembering a handle never fails. -/
theorem outcome_remember (hinvoke : Within 2 invoke) (hclear : ClearTag m.tag) (hserved : Served m h) (hn : n < 2 ^ 32)
    (v : Value) : ∃ h', outcome (remember invoke m v (.nat n)) h = (.ok (), h') ∧ Marks m h h' ∧
      Entered m v n h h' ∧ ∀ a, v = .object a → Remembered m a n h h' := by
  have hmarks := (leaves_remember hinvoke hclear hserved hn v).1
  have hdone : ∃ h', outcome (remember invoke m v (.nat n)) h = (.ok (), h') ∧ Entered m v n h h' ∧
      ∀ a, v = .object a → Remembered m a n h h' := by
    by_cases hv : ∃ a, v = .object a
    · obtain ⟨a, rfl⟩ := hv
      obtain ⟨h', hrun, hentered, hremembered⟩ := outcome_remember_object hinvoke hclear hserved hn a
      exact ⟨h', hrun, hentered, fun b hb => Value.object.inj hb ▸ hremembered⟩
    · obtain ⟨u, entries, hu, hkind, hset⟩ := outcome_mapSet (hinvoke.mono (by decide)) hserved.works v (.nat n)
      rw [remember, outcome_bind_ok (outcome_tag_value hserved (fun a ha => hv ⟨a, ha⟩) invoke _),
        if_neg Bool.false_ne_true, outcome_bind_ok hset]
      exact ⟨_, rfl, (Entered.refl m v n h).mapSet hclear hu hkind, fun a ha => absurd ⟨a, ha⟩ hv⟩
  obtain ⟨h', hrun, hentered, hremembered⟩ := hdone
  rw [hrun] at hmarks
  exact ⟨h', hrun, hmarks, hentered, hremembered⟩

end Converter
end ScriptBridge.Script
