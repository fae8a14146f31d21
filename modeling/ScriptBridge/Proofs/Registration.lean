import ScriptBridge.Proofs.Tables

/-! Registration of objects, whatever state the objects and the stack are in. A handle is given only for the slot
that holds the object, and no slot is ever given anew. -/
namespace ScriptBridge.Script

variable {α β : Type} {h h' : Heap} {m : Memory} {a b t u : Address} {k : Key} {n : Nat} {v : Value}

/-- A run changes a heap as the functions of a table do; what holds of its result holds when it ends in one. -/
def Run.Leaves (m : Memory) (r : Run α) (h : Heap) (Q : α → Heap → Prop) : Prop :=
  Marks m h (outcome r h).2 ∧ ∀ x, (outcome r h).1 = .ok x → Q x (outcome r h).2

namespace Run.Leaves

variable {r : Run α} {f : α → Run β} {Q Q' : α → Heap → Prop} {R : β → Heap → Prop}

theorem of_ok {x : α} (hr : outcome r h = (.ok x, h')) (hmarks : Marks m h h') (hQ : Q x h') : Leaves m r h Q := by
  rw [Leaves, hr]
  refine ⟨hmarks, fun y hy => ?_⟩
  obtain rfl : x = y := by simpa using hy
  exact hQ

theorem of_error {e : Thrown} (hr : outcome r h = (.error e, h')) (hmarks : Marks m h h') : Leaves m r h Q := by
  rw [Leaves, hr]
  exact ⟨hmarks, nofun⟩

theorem pure {x : α} (hQ : Q x h) : Leaves m (Pure.pure x : Run α) h Q := of_ok rfl (.refl m h) hQ

theorem fail (message : String) : Leaves m (Run.fail message : Run α) h Q := of_error rfl (.refl m h)

theorem of_eq {r' : Run α} (hr : outcome r h = outcome r' h) (hleaves : Leaves m r' h Q) : Leaves m r h Q := by
  rwa [Leaves, hr]

theorem imp (hleaves : Leaves m r h Q) (hQ : ∀ x h', Marks m h h' → Q x h' → Q' x h') : Leaves m r h Q' :=
  ⟨hleaves.1, fun x hx => hQ x _ hleaves.1 (hleaves.2 x hx)⟩

theorem bind (hleaves : Leaves m r h Q) (hf : ∀ x h', Marks m h h' → Q x h' → Leaves m (f x) h' R) :
    Leaves m (r >>= f) h R := by
  obtain ⟨hmarks, hQ⟩ := hleaves
  rw [Leaves, outcome_bind]
  rcases hr : outcome r h with ⟨e | x, h'⟩
  · rw [hr] at hmarks
    exact ⟨hmarks, nofun⟩
  · rw [hr] at hmarks hQ
    obtain ⟨hmarks', hR⟩ := hf x h' hmarks (hQ x rfl)
    exact ⟨hmarks.trans hmarks', hR⟩

theorem tryCatch {g : Thrown → Run α} (hleaves : Leaves m r h Q) (hg : ∀ e h', Marks m h h' → Leaves m (g e) h' Q) :
    Leaves m (tryCatch r g) h Q := by
  obtain ⟨hmarks, hQ⟩ := hleaves
  rw [Leaves, outcome_tryCatch]
  rcases hr : outcome r h with ⟨e | x, h'⟩
  · rw [hr] at hmarks
    obtain ⟨hmarks', hQ'⟩ := hg e h' hmarks
    exact ⟨hmarks.trans hmarks', hQ'⟩
  · rw [hr] at hmarks hQ
    exact ⟨hmarks, hQ⟩

/-- A step that changes nothing. -/
theorem bind_ok {x : α} (hr : outcome r h = (.ok x, h)) (hf : Leaves m (f x) h R) : Leaves m (r >>= f) h R :=
  of_eq (outcome_bind_ok hr) hf

end Run.Leaves

/-- A slot holds an object, when there is an index for it. -/
def Slot (m : Memory) (h : Heap) (n : Nat) (a : Address) : Prop :=
  n < 2 ^ 32 ∧ (n < Key.indexBound → ∃ t p, m.table = .object t ∧ t < h.objects.size ∧
    (h.object t).elements[n]? = some p ∧ p.value = .object a)

/-- What a slot holds stays there. -/
theorem Slot.marks (hmarks : Marks m h h') (hslot : Slot m h n a) : Slot m h' n a := by
  refine ⟨hslot.1, fun hn => ?_⟩
  obtain ⟨t, p, ht, hmade, hp, hvalue⟩ := hslot.2 hn
  exact ⟨t, p, ht, hmade.trans_eq hmarks.size.symm, (hmarks.object t).element n p hp, hvalue⟩

namespace Marks

private theorem storage_setObject {o : Object} (hkept : (h.object b).kind.Kept o.kind) (a : Address) :
    (h.setObject b o).storage a = h.storage a :=
  Heap.storage_congr fun c _ => by
    by_cases hb : b < h.objects.size
    · by_cases hcb : c = b
      · rw [hcb, Heap.object_setObject_self o hb, hkept.proxy?]
      · rw [Heap.object_setObject_of_ne o hcb]
    · rw [Heap.setObject_of_size_le o (Nat.le_of_not_lt hb)]

/-- An object is changed in a way in which the functions of a table change objects. -/
theorem setObject {o : Object} (htag : Key.ofText m.tag ≠ .length) (hkept : (h.object b).Kept (.ofText m.tag) o)
    (hothers : m.table ≠ .object b → o.elements = (h.object b).elements ∧
      (m.untagged ≠ .object b → o.kind = (h.object b).kind))
    (hproperty : ∀ p, o.property? (.ofText m.tag) = some p →
      (h.object b).property? (.ofText m.tag) = some p ∨ IsHandle p.value)
    (htable : m.table = .object b → IsTable h b → IsTable (h.setObject b o) b)
    (hmap : m.untagged = .object b → IsHandleMap h b → IsHandleMap (h.setObject b o) b) :
    Marks m h (h.setObject b o) := by
  by_cases hb : b < h.objects.size
  · have hself := Heap.object_setObject_self o hb
    have hother {a : Address} (ha : a ≠ b) := Heap.object_setObject_of_ne (h := h) o ha
    refine ⟨by simp, fun a => ?_, fun a hne => ?_, fun a p hp => ?_, fun t ht hist => ?_, fun u hu hisu => ?_⟩
    · by_cases hab : a = b
      · rw [hab, hself]
        exact hkept
      · rw [hother hab]
        exact .refl _ _
    · by_cases hab : a = b
      · subst hab
        rw [hself]
        exact hothers hne
      · rw [hother hab]
        exact ⟨rfl, fun _ => rfl⟩
    · rw [Heap.own?_of_ne_length htag, Heap.stored, storage_setObject hkept.kind] at hp
      rw [Heap.own?_of_ne_length htag, Heap.stored]
      by_cases hab : h.storage a = b
      · rw [hab, hself] at hp
        rw [hab]
        exact hproperty p hp
      · rw [hother hab] at hp
        exact .inl hp
    · by_cases htb : t = b
      · subst htb
        exact htable ht hist
      · rw [IsTable, hother htb, Heap.size_setObject]
        exact hist
    · by_cases hub : u = b
      · subst hub
        exact hmap hu hisu
      · rw [IsHandleMap, hother hub, Heap.size_setObject]
        exact hisu
  · rw [Heap.setObject_of_size_le o (Nat.le_of_not_lt hb)]
    exact .refl m h

end Marks

namespace Object

/-- The definition of a value under a name changes nothing, or puts the value there. -/
theorem define_name (o : Object) (x : Content) {d : Descriptor} (hd : d.value = some v) :
    (o.define (.name x) d).2 = o ∨ ∃ p, (o.define (.name x) d).2 = o.put (.name x) p ∧ p.value = v := by
  unfold define
  split
  · split
    · refine .inr ⟨_, rfl, ?_⟩
      rw [Descriptor.change, hd]
      rfl
    · exact .inl rfl
  · split
    · exact .inl rfl
    · refine .inr ⟨d.fresh, ?_, ?_⟩
      · cases o.kind <;> rfl
      · rw [Descriptor.fresh, hd]
        rfl

end Object

theorem Heap.defineStored_name {x : Content} (hx : Key.name x ≠ .length) {d : Descriptor} (hd : d.value = some v)
    (h : Heap) (b : Address) : (h.defineStored b (.name x) d).2 = h ∨
      ∃ p, (h.defineStored b (.name x) d).2 = h.setObject b ((h.object b).put (.name x) p) ∧ p.value = v := by
  have hdefine : (h.defineStored b (.name x) d).2 = h.setObject b ((h.object b).define (.name x) d).2 := by
    unfold defineStored
    dsimp only
    split
    · rw [if_neg hx]
    · rfl
  rw [hdefine]
  rcases (h.object b).define_name x hd with hsame | ⟨p, hput, hp⟩
  · rw [hsame, setObject_object]
    exact .inl rfl
  · exact .inr ⟨p, by rw [hput], hp⟩

/-- The definition of a value under a name changes nothing, or puts the value into the object behind the proxies. -/
theorem Heap.define_name {x : Content} (hx : Key.name x ≠ .length) {d : Descriptor} (hd : d.value = some v) (h : Heap)
    (a : Address) : (h.define a (.name x) d).2 = h ∨ ∃ p, (h.define a (.name x) d).2 =
      h.setObject (h.storage a) ((h.object (h.storage a)).put (.name x) p) ∧ p.value = v := by
  induction a using Nat.strongRecOn with
  | ind a ih =>
    unfold Heap.define
    split
    · rename_i t trap hkind
      cases trap with
      | forward =>
        dsimp only
        split
        · rename_i ht
          rw [storage_proxy hkind ht]
          exact ih t ht
        · exact .inl rfl
      | decline => exact .inl rfl
      | claim => exact .inl rfl
      | throw message => exact .inl rfl
    · rename_i hnone
      have hproxy : h.isProxy a = false := by
        unfold isProxy
        split
        · rename_i hkind
          exact (hnone _ _ hkind).elim
        · rfl
      rw [storage_of_not_isProxy hproxy]
      exact defineStored_name hx hd h a

namespace Marks

/-- A property is put under a name that is not steady; under the tag it is a handle. -/
theorem put_name {x : Content} (hx : ¬(Key.name x).Steady (.ofText m.tag)) (hlength : Key.ofText m.tag ≠ .length)
    {p : Property} (hp : Key.ofText m.tag = .name x → IsHandle p.value)
    (h : Heap) (b : Address) : Marks m h (h.setObject b ((h.object b).put (.name x) p)) := by
  refine setObject hlength ⟨.same _, rfl, rfl, fun k hk => ?_, fun _ _ => id⟩ (fun _ => ⟨rfl, fun _ => rfl⟩) (fun q hq => ?_) ?_ ?_
  · have hne : k ≠ .name x := by
      rintro rfl
      exact hx hk
    rw [Object.property?_put, if_neg hne]
  · rw [Object.property?_put] at hq
    by_cases htag : Key.ofText m.tag = .name x
    · rw [if_pos htag] at hq
      obtain rfl := Option.some.inj hq
      exact .inr (hp htag)
    · rw [if_neg htag] at hq
      exact .inl hq
  · rintro - ⟨hb, htable⟩
    rw [IsTable, Heap.object_setObject_self _ hb, Heap.size_setObject]
    exact ⟨hb, htable⟩
  · rintro - ⟨hb, hmap⟩
    rw [IsHandleMap, Heap.object_setObject_self _ hb, Heap.size_setObject]
    exact ⟨hb, hmap⟩

/-- A value is defined under a name that is not steady; under the tag it is a handle. -/
theorem define_name {x : Content} (hx : ¬(Key.name x).Steady (.ofText m.tag)) (hlength : Key.name x ≠ .length)
    (htag : Key.ofText m.tag ≠ .length) {d : Descriptor} (hd : d.value = some v)
    (hv : Key.ofText m.tag = .name x → IsHandle v) (h : Heap) (a : Address) : Marks m h (h.define a (.name x) d).2 := by
  rcases Heap.define_name hlength hd h a with hsame | ⟨p, hput, hp⟩
  · rw [hsame]
    exact .refl m h
  · rw [hput]
    exact .put_name hx htag (fun heq => by rw [hp]; exact hv heq) h _

end Marks

namespace Key

theorem overflow_eq : overflow = .name (.ofChars (Text.decimal indexBound)) := by
  rw [overflow, ofNat, if_neg (Nat.lt_irrefl _), ofChars, if_neg]
  simp [Text.numeral_decimal]

theorem overflow_ne {s : String} {c : Char} (hc : c ∈ s.toList) (hdigit : c.isDigit = false) :
    overflow ≠ .name (.text s) := by
  intro h
  rw [overflow_eq, Content.ofChars] at h
  have hs : String.ofList (Text.decimal indexBound) = s := by simpa using h
  rw [← hs, String.toList_ofList] at hc
  rw [Text.isDigit_of_mem_decimal hc] at hdigit
  cases hdigit

theorem overflow_ne_length : overflow ≠ .length := overflow_ne (c := 'l') (by decide) (by decide)

theorem overflow_ne_proto : overflow ≠ .proto := overflow_ne (c := '_') (by decide) (by decide)

end Key

namespace Run

theorem heap_accept (o : Defined) (h : Heap) : (outcome (accept o) h).2 = h := by cases o <;> rfl

/-- An assignment changes nothing, or defines the value; what an object inherits from is assigned otherwise. -/
theorem heap_assign (hproto : k = .proto → ∀ h, (outcome (assignProto a v) h).2 = h) (h : Heap) :
    (outcome (assign (.object a) k v) h).2 = h ∨
      ∃ d : Descriptor, d.value = some v ∧ (outcome (assign (.object a) k v) h).2 = (h.define a k d).2 := by
  have hdefine (d : Descriptor) : outcome (define a k d) h = (.ok (h.define a k d).1, (h.define a k d).2) := rfl
  have hown : ∃ d : Descriptor, d.value = some v ∧ (outcome (assignOwn a k v) h).2 = (h.define a k d).2 := by
    rw [assignOwn, outcome_bind_ok (outcome_get h)]
    split
    · refine ⟨.ofValue v, rfl, ?_⟩
      rw [outcome_bind_ok (hdefine _)]
      split
      · split <;> rfl
      · exact heap_accept _ _
    · refine ⟨.ofProperty (.plain v), rfl, ?_⟩
      rw [outcome_bind_ok (hdefine _)]
      exact heap_accept _ _
  rw [assign, outcome_bind_ok (outcome_get h)]
  split
  · split
    · exact .inr hown
    · exact .inl rfl
  · split
    · rename_i hk
      simp only [Bool.and_eq_true, decide_eq_true_eq] at hk
      exact .inl (hproto hk.1 h)
    · exact .inr hown

/-- An assignment defines a property of the object, unless what is inherited forbids it. -/
theorem leaves_assign_own {Q : Unit → Heap → Prop} (hk : k ≠ .proto) (hown : Leaves m (assignOwn a k v) h Q) :
    Leaves m (assign (.object a) k v) h Q := by
  refine .bind_ok (outcome_get h) ?_
  split
  · split
    · exact hown
    · exact .of_error rfl (.refl m h)
  · rw [if_neg (by simp [hk])]
    exact hown

/-- A value is assigned under a name that is not steady, nor the tag. -/
theorem leaves_assign_name {x : Content} (hx : ¬(Key.name x).Steady (.ofText m.tag)) (hlength : Key.name x ≠ .length)
    (hproto : Key.name x ≠ .proto) (htag : Key.ofText m.tag ≠ .length)
    (hne : Key.ofText m.tag ≠ .name x) (h : Heap) (a : Address) (v : Value) :
    Leaves m (assign (.object a) (.name x) v) h fun _ _ => True := by
  refine ⟨?_, fun _ _ => trivial⟩
  rcases heap_assign (a := a) (v := v) (fun heq => absurd heq hproto) h with hsame | ⟨d, hd, hdefine⟩
  · rw [hsame]
    exact .refl m h
  · rw [hdefine]
    exact .define_name hx hlength htag hd (fun heq => absurd heq hne) h a

end Run

/-- The definition of the element behind the last one makes an array longer, or is refused. -/
theorem Object.define_past {o : Object} {w : Bool} (hkind : o.kind = .array n w) (hnone : o.elements[n]? = none)
    (p : Property) : o.define (.index n) (.ofProperty p) =
      (.accepted, { o with kind := .array (n + 1) w, elements := o.elements.insert n p }) ∨
      ∃ why, o.define (.index n) (.ofProperty p) = (.refused why, o) := by
  have hproperty : o.property? (.index n) = none := hnone
  unfold define
  rw [hproperty, hkind]
  dsimp only
  split
  · exact .inr ⟨_, rfl⟩
  · rw [if_neg (Nat.lt_irrefl n)]
    cases w with
    | true => exact .inl rfl
    | false => exact .inr ⟨_, rfl⟩

namespace Converter

open Run (callWithin within_callWithin Leaves Within)

variable {invoke : Caller} {d : Nat}

private def overflowed : Thrown := .error (.text "stack overflow")

private theorem outcome_method_none (b : Address) (name : String) (args : List Value) (h : Heap) :
    outcome (Run.method (callWithin 0) (.object b) name args) h = (.error overflowed, h) := rfl

theorem leaves_hasTag (hinvoke : Within d invoke) (hworks : m.Works h) (a : Address) :
    Leaves m (hasTag invoke m (.object a)) h fun x h' => h = h' ∧ x = (h.own? a (.ofText m.tag)).isSome := by
  obtain ⟨depth, -, hmethod⟩ := hinvoke.method m.hasOwn "call" [.object a, .text m.tag] h
  refine .of_eq (outcome_bind_congr hmethod) ?_
  obtain ⟨q, hq, -, hcall⟩ := hworks.hasOwn
  match depth with
  | 0 =>
    refine .of_error (e := overflowed) ?_ (.refl m h)
    rw [hq]
    exact outcome_bind_error (outcome_method_none q "call" _ h)
  | 1 =>
    refine .of_error (e := overflowed) ?_ (.refl m h)
    rw [hq]
    refine outcome_bind_error ?_
    rw [Run.outcome_method hcall]
    rfl
  | depth + 2 => exact .of_ok (outcome_hasTag ((within_callWithin _).mono (by omega)) hworks a) (.refl m h) ⟨rfl, rfl⟩

theorem leaves_mapGet (hinvoke : Within d invoke) (hworks : m.Works h) (v : Value) :
    Leaves m (Run.method invoke m.untagged "get" [v]) h fun x h' => h = h' ∧ x = m.known h v := by
  obtain ⟨depth, -, hmethod⟩ := hinvoke.method m.untagged "get" [v] h
  refine .of_eq hmethod ?_
  cases depth with
  | zero =>
    obtain ⟨u, entries, hu, -⟩ := hworks.untagged
    rw [hu]
    exact .of_error (outcome_method_none u "get" [v] h) (.refl m h)
  | succ depth => exact .of_ok (outcome_mapGet ((within_callWithin _).mono (by omega)) hworks v) (.refl m h) ⟨rfl, rfl⟩

/-- A handle is found in a slot only where the slot holds the object. -/
theorem leaves_holds (hready : Ready m h) (hn : n < 2 ^ 32) (invoke : Caller) (a : Address) :
    Leaves m (holds invoke m (.nat n) (.object a)) h fun x h' => h = h' ∧ (x = true → Slot m h n a) := by
  obtain ⟨t, ht, htable⟩ := hready.table
  refine .of_ok (outcome_holds ht hn (Number.toDouble_ofNat n) invoke (.object a) h) (.refl m h) ⟨rfl, fun hsame => ⟨hn, ?_⟩⟩
  intro hbound
  rw [show Key.ofNat n = .index n from if_pos hbound, Heap.get,
    hready.bare.find?_index hready.foundations.library htable.isProxy htable.2.1] at hsame
  cases helement : (h.object t).elements[n]? with
  | some p =>
    refine ⟨t, p, ht, htable.1, helement, ?_⟩
    rw [helement] at hsame
    change p.value.same (.object a) = true at hsame
    generalize p.value = w at hsame ⊢
    cases w <;> simp_all [Value.same]
  | none =>
    rw [helement] at hsame
    simp [Key.proto, Value.same] at hsame

/-- The handle of a slot that holds an object. -/
private def HandleOf (m : Memory) (a : Address) (v : Value) (h : Heap) : Prop := ∃ n, v = .nat n ∧ Slot m h n a

theorem leaves_taggedHandle? (hinvoke : Within d invoke) (hready : Ready m h) (a : Address) :
    Leaves m (taggedHandle? invoke m (.object a)) h fun x h' => h = h' ∧ ∀ v ∈ x, HandleOf m a v h := by
  refine (leaves_hasTag hinvoke hready.works a).bind ?_
  rintro x _ - ⟨rfl, rfl⟩
  cases hown : h.own? a (.ofText m.tag) with
  | none => exact .pure ⟨rfl, nofun⟩
  | some p =>
    obtain ⟨n, hn, hp⟩ := hready.tags a p hown
    have hread : outcome (readTag m (.object a)) h = (.ok (.nat n), h) := by
      rw [outcome_readTag, Heap.get_of_find? (Heap.find?_of_own? hown), hp]
    rw [Option.isSome_some, if_pos rfl]
    refine .bind_ok hread ((leaves_holds hready hn _ a).bind ?_)
    rintro x _ - ⟨rfl, hslot⟩
    cases x with
    | false => exact .pure ⟨rfl, by simp⟩
    | true =>
      refine .pure ⟨rfl, fun v hv => ?_⟩
      obtain rfl := Option.some.inj hv
      exact ⟨n, rfl, hslot rfl⟩

theorem leaves_knownHandle? (hinvoke : Within d invoke) (hready : Ready m h) (a : Address) :
    Leaves m (knownHandle? invoke m (.object a)) h fun x h' => h = h' ∧ ∀ v ∈ x, HandleOf m a v h := by
  refine (leaves_mapGet hinvoke hready.works (.object a)).bind ?_
  rintro x _ - ⟨rfl, rfl⟩
  obtain ⟨u, hu, -, entries, hkind, hhandles⟩ := hready.map
  have hknown := Memory.known_cases hu hkind hhandles (.object a)
  by_cases hundefined : m.known h (.object a) = .undefined
  · rw [if_pos hundefined]
    exact .pure ⟨rfl, by simp⟩
  · obtain ⟨n, hn, hvalue⟩ := hknown.resolve_left hundefined
    rw [if_neg hundefined, hvalue]
    refine (leaves_holds hready hn _ a).bind ?_
    rintro x _ - ⟨rfl, hslot⟩
    cases x with
    | false => exact .pure ⟨rfl, by simp⟩
    | true =>
      refine .pure ⟨rfl, fun v hv => ?_⟩
      obtain rfl := Option.some.inj hv
      exact ⟨n, rfl, hslot rfl⟩

theorem leaves_defineTag (invoke : Caller) (hclear : ClearTag m.tag) (hserved : Served m h) (hn : n < 2 ^ 32) (v : Value) :
    Leaves m (defineTag invoke m v (.nat n)) h fun _ _ => ∃ a, v = .object a := by
  obtain ⟨f, -, -, hf, ⟨g, hg, hcode⟩, -⟩ := hserved.foundations.object
  refine .bind_ok (Run.outcome_global hf) (.bind_ok (Run.outcome_read_object f _ h) (.bind_ok (outcome_get h) ?_))
  rw [hg.get_eq, if_pos (show h.codeOf? (.object g) = some (.builtin .defineProperty) from hcode)]
  cases v with
  | object a =>
    obtain ⟨x, htag⟩ := hclear.name
    have hlength := hclear.length
    have hdefine : Leaves m (Run.define a (.ofText m.tag) (tagDescriptor (.nat n))) h fun _ _ => True := by
      refine .of_ok rfl ?_ trivial
      rw [htag]
      exact .define_name (fun hsteady => hsteady.tag htag.symm) (htag ▸ hlength) hlength rfl
        (fun _ => ⟨n, hn, rfl⟩) h a
    refine hdefine.bind fun x h' _ _ => ?_
    cases x with
    | accepted => exact .pure ⟨a, rfl⟩
    | _ => exact .fail _
  | _ => exact .fail _

theorem leaves_tag (hinvoke : Within d invoke) (hclear : ClearTag m.tag) (hserved : Served m h) (hn : n < 2 ^ 32) (v : Value) :
    Leaves m (tag invoke m v (.nat n)) h fun _ _ => True := by
  have hdefined : Leaves m (tryCatch (do defineTag invoke m v (.nat n); pure true) fun _ => pure false) h
      fun x _ => x = true → ∃ a, v = .object a :=
    ((leaves_defineTag invoke hclear hserved hn v).bind fun _ h' _ hv => .pure fun _ => hv).tryCatch
      fun _ h' _ => .pure nofun
  refine hdefined.bind fun x h' hmarks hv => ?_
  cases x with
  | false => exact .pure trivial
  | true =>
    obtain ⟨a, rfl⟩ := hv rfl
    refine (leaves_hasTag hinvoke (hserved.marks hmarks hclear).works a).bind ?_
    rintro x _ - ⟨rfl, -⟩
    cases x with
    | false => exact .pure trivial
    | true => exact .bind_ok (outcome_readTag m a h') (.pure trivial)

theorem leaves_mapSet (hinvoke : Within d invoke) (hclear : ClearTag m.tag) (hserved : Served m h) (hn : n < 2 ^ 32) (v : Value) :
    Leaves m (Run.method invoke m.untagged "set" [v, .nat n]) h fun _ _ => True := by
  obtain ⟨depth, -, hmethod⟩ := hinvoke.method m.untagged "set" [v, .nat n] h
  refine .of_eq hmethod ?_
  cases depth with
  | zero =>
    obtain ⟨u, entries, hu, -⟩ := hserved.works.untagged
    rw [hu]
    exact .of_error (outcome_method_none u "set" _ h) (.refl m h)
  | succ depth =>
    obtain ⟨u, entries, hu, hkind, hrun⟩ := outcome_mapSet ((within_callWithin (depth + 1)).mono (by omega)) hserved.works v
      (.nat n)
    refine .of_ok hrun (.setObject hclear.length ⟨?_, rfl, rfl, fun _ _ => rfl, fun _ _ => id⟩
      (fun _ => ⟨rfl, fun hne => absurd hu hne⟩) (fun p hp => .inl hp) ?_ ?_) trivial
    · rw [hkind]
      exact .map _ _
    · rintro - ⟨-, -, k, w, htable, -⟩
      rw [htable] at hkind
      cases hkind
    · rintro - ⟨humade, entries', hkind', hhandles⟩
      obtain rfl : entries' = entries := by simpa using hkind'.symm.trans hkind
      refine ⟨by simpa using humade, _, by rw [Heap.object_setObject_self _ humade], fun e he => ?_⟩
      rcases List.mem_cons.1 he with rfl | he
      · exact ⟨n, hn, rfl⟩
      · exact hhandles e (List.mem_of_mem_filter he)

theorem leaves_remember (hinvoke : Within d invoke) (hclear : ClearTag m.tag) (hserved : Served m h) (hn : n < 2 ^ 32) (v : Value) :
    Leaves m (remember invoke m v (.nat n)) h fun _ _ => True := by
  refine (leaves_tag hinvoke hclear hserved hn v).bind fun x h' hmarks _ => ?_
  cases x with
  | true => exact .pure trivial
  | false =>
    exact (leaves_mapSet hinvoke hclear (hserved.marks hmarks hclear) hn v).bind fun _ _ _ _ => .pure trivial

/-- The table takes a value at its end, and keeps its other slots. -/
theorem leaves_assign (hclear : ClearTag m.tag) {t : Address} (ht : m.table = .object t) (htable : IsTable h t) {w : Bool}
    (hkind : (h.object t).kind = .array n w) (a : Address) :
    Leaves m (Run.assign m.table (.ofNat n) (.object a)) h fun _ h' => Slot m h' n a := by
  obtain ⟨hmade, hproto, n', w', hkind', hn, hroom⟩ := htable
  obtain ⟨rfl, rfl⟩ : n' = n ∧ w' = w := by simpa using hkind'.symm.trans hkind
  have hlength := hclear.length
  rw [ht]
  by_cases hbound : n' < Key.indexBound
  · rw [show Key.ofNat n' = .index n' from if_pos hbound]
    have hnone : (h.object t).elements[n']? = none := by
      cases helement : (h.object t).elements[n']? with
      | none => rfl
      | some p => exact absurd (hroom n' p helement) (Nat.lt_irrefl _)
    have hproxy : h.isProxy t = false := by rw [Heap.isProxy, hkind]
    have hown : h.own? t (.index n') = none := by rw [Heap.own?_index hproxy, hnone]
    refine Run.leaves_assign_own (by simp [Key.proto]) (.bind_ok (outcome_get h) ?_)
    rw [hown, if_neg (by simp)]
    have hrun := Run.outcome_define t (.index n') (.ofProperty (.plain (.object a))) h
    rw [Heap.define_index hkind] at hrun
    rcases Object.define_past hkind hnone (.plain (.object a)) with hdone | ⟨why, hrefused⟩
    · rw [hdone] at hrun
      obtain ⟨x, hx⟩ := hclear.name
      have hinsert {i : Nat} {p : Property} (hp : (h.object t).elements[i]? = some p) :
          ((h.object t).elements.insert n' (.plain (.object a)))[i]? = some p := by
        rw [Std.TreeMap.getElem?_insert, if_neg (by simpa using (hroom i p hp).ne'), hp]
      refine .of_ok (outcome_bind_ok hrun) (.setObject hlength ⟨?_, rfl, rfl, fun k hk => ?_, fun i p hp => hinsert hp⟩
        (fun hne => absurd ht hne) (fun p hp => .inl ?_) ?_ ?_) ⟨hn, fun _ => ?_⟩
      · rw [hkind]
        exact .array (Nat.le_succ n')
      · obtain ⟨y, rfl⟩ := hk.name
        rfl
      · rw [hx] at hp ⊢
        exact hp
      · rintro - -
        refine ⟨by simpa using hmade, ?_⟩
        rw [Heap.object_setObject_self _ hmade]
        refine ⟨hproto, n' + 1, w', rfl, ?_, fun i p hp => ?_⟩
        · exact Nat.lt_of_lt_of_le (Nat.succ_lt_succ hbound) (Nat.le_refl _)
        · rw [Std.TreeMap.getElem?_insert] at hp
          split at hp
          · rename_i heq
            obtain rfl : n' = i := by simpa using heq
            exact Nat.lt_succ_self n'
          · exact Nat.lt_succ_of_lt (hroom i p hp)
      · rintro - ⟨-, entries, hmap, -⟩
        rw [hkind] at hmap
        cases hmap
      · refine ⟨t, .plain (.object a), ht, by simpa using hmade, ?_, rfl⟩
        rw [Heap.object_setObject_self _ hmade]
        simp
    · rw [hrefused, Heap.setObject_object] at hrun
      exact .of_error (outcome_bind_ok hrun) (.refl m h)
  · have hend : n' = Key.indexBound := by
      have : Key.indexBound = 2 ^ 32 - 1 := rfl
      omega
    have hoverflow : Key.ofNat n' = .name (.ofChars (Text.decimal Key.indexBound)) := by rw [hend, ← Key.overflow_eq]; rfl
    have hassign := Run.leaves_assign_name (m := m) (x := .ofChars (Text.decimal Key.indexBound))
      (fun hsteady => hsteady.overflow Key.overflow_eq.symm) (Key.overflow_eq ▸ Key.overflow_ne_length)
      (Key.overflow_eq ▸ Key.overflow_ne_proto) hlength
      (fun heq => by rw [← Key.overflow_eq] at heq; exact hclear.overflow heq) h t (.object a)
    rw [hoverflow]
    exact hassign.imp fun _ h' _ _ => ⟨hn, fun hlt => absurd hlt hbound⟩

theorem leaves_append (hinvoke : Within d invoke) (hclear : ClearTag m.tag) (hserved : Served m h)
    (ht : m.table = .object t) (htable : IsTable h t) (a : Address) :
    Leaves m (append invoke m (.object a)) h (HandleOf m a) := by
  obtain ⟨-, -, n, w, hkind, hn, -⟩ := id htable
  have hread : outcome (Run.read m.table .length) h = (.ok (.nat n), h) := by
    rw [ht, Run.outcome_read_object, htable.get_length hkind]
  have hkey : Run.key invoke (.nat n) = pure (.ofNat n) := Run.key_number hn (Number.toDouble_ofNat n)
  refine .bind_ok hread ?_
  rw [hkey, pure_bind]
  refine (leaves_assign hclear ht htable hkind a).bind fun _ h₁ hmarks hslot => ?_
  refine (leaves_remember hinvoke hclear (hserved.marks hmarks hclear) hn (.object a)).bind fun _ h₂ hmarks' _ => ?_
  exact .pure ⟨n, rfl, hslot.marks hmarks'⟩

/-- A handle is given for a slot that holds the object. -/
theorem leaves_register (hinvoke : Within d invoke) (hclear : ClearTag m.tag) (hready : Ready m h) (a : Address) :
    Leaves m (register invoke m (.object a)) h (HandleOf m a) := by
  refine (leaves_taggedHandle? hinvoke hready a).bind ?_
  rintro x _ - ⟨rfl, hx⟩
  cases x with
  | some v => exact .pure (hx v rfl)
  | none =>
    refine (leaves_knownHandle? hinvoke hready a).bind ?_
    rintro x _ - ⟨rfl, hx⟩
    cases x with
    | some v => exact .pure (hx v rfl)
    | none =>
      obtain ⟨t, ht, htable⟩ := hready.table
      exact leaves_append hinvoke hclear hready.toServed ht htable a

/-- A token is given for a slot that holds the object. -/
theorem leaves_token (hinvoke : Within d invoke) (hclear : ClearTag m.tag) (hready : Ready m h) (a : Address) :
    Leaves m (token invoke m (.object a)) h fun v h' =>
      ∃ n, v = .text (m.scheme ++ String.ofList (Text.decimal n)) ∧ Slot m h' n a := by
  refine (leaves_register hinvoke hclear hready a).bind ?_
  rintro _ h' hmarks ⟨n, rfl, hslot⟩
  have htext : (Number.ofNat n).text = Text.decimal n := Number.text_of_toDouble hslot.1 (Number.toDouble_ofNat n)
  refine .of_ok (outcome_sum _ m.scheme (.ofNat n) h') (.refl m h') ⟨n, ?_, hslot⟩
  rw [htext]
  rfl

end Converter
end ScriptBridge.Script
