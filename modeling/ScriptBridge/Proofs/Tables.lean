import ScriptBridge.Proofs.Library

/-! Handle tables at work. The functions of a table change what is already in a heap in few ways only: they set tags,
they append to the table, and they enter objects into the map. A table that is in place stays in place. -/
namespace ScriptBridge.Script

variable {h h' h'' : Heap} {m : Memory} {a b f : Address} {k : Key} {v : Value} {tag : Key}

/-- A handle as a number of the script language. -/
def IsHandle (v : Value) : Prop := ∃ n < 2 ^ 32, v = .nat n

/-- The language's own objects that a table is made with, and works with. -/
structure Foundations (h : Heap) : Prop where
  library : Library h
  global : (h.object Heap.global).kind = .ordinary
  object : ∃ f p q, h.Holds Heap.global (.ofText "Object") (.object f) ∧ h.Offers f "defineProperty" .defineProperty ∧
    h.Holds f (.ofText "prototype") (.object p) ∧ h.Holds p (.ofText "hasOwnProperty") (.object q) ∧
    h.code? q = some (.builtin .hasOwnProperty) ∧ h.Offers q "call" .call
  map : ∃ f, h.Holds Heap.global (.ofText "Map") (.object f) ∧ h.code? f = some (.builtin .map)
  mapGet : h.Offers Heap.mapProto "get" .mapGet
  mapSet : h.Offers Heap.mapProto "set" .mapSet
  globalThis : h.Holds Heap.global (.ofText "globalThis") (.object Heap.global)

theorem Foundations.keeps (hkeeps : h.Keeps h') (hfoundations : Foundations h) : Foundations h' := by
  obtain ⟨f, p, q, hf, hdefine, hp, hq, hqcode, hcall⟩ := hfoundations.object
  obtain ⟨u, hu, hucode⟩ := hfoundations.map
  exact {
    library := hfoundations.library.keeps hkeeps
    global := hkeeps.global (Heap.lt_size_of_holds hfoundations.globalThis) hfoundations.global
    object := ⟨f, p, q, hkeeps.holds (by decide) hf, hkeeps.offers (by decide) hdefine, hkeeps.holds (by decide) hp,
      hkeeps.holds (by decide) hq, hkeeps.code q _ hqcode, hkeeps.offers (by decide) hcall⟩
    map := ⟨u, hkeeps.holds (by decide) hu, hkeeps.code u _ hucode⟩
    mapGet := hkeeps.offers (by decide) hfoundations.mapGet
    mapSet := hkeeps.offers (by decide) hfoundations.mapSet
    globalThis := hkeeps.holds (by decide) hfoundations.globalThis }

/-- Arrays inherit nothing under an index. -/
def Bare (h : Heap) : Prop :=
  ∀ i : Nat, (h.object Heap.arrayProto).elements[i]? = none ∧ (h.object Heap.objectProto).elements[i]? = none

/-- An array that holds the slots of a table. -/
def IsTable (h : Heap) (t : Address) : Prop :=
  t < h.objects.size ∧ (h.object t).proto = some Heap.arrayProto ∧ ∃ n w, (h.object t).kind = .array n w ∧ n < 2 ^ 32 ∧
    ∀ (i : Nat) (p : Property), (h.object t).elements[i]? = some p → i < n

/-- A map that gives handles. -/
def IsHandleMap (h : Heap) (u : Address) : Prop :=
  u < h.objects.size ∧ ∃ entries, (h.object u).kind = .map entries ∧ ∀ e ∈ entries, IsHandle e.2

/-- The name that stands for the index past the last one. -/
def Key.overflow : Key := .ofNat indexBound

/-- A name under which the functions of a table leave all objects as they are. -/
structure Key.Steady (k tag : Key) : Prop where
  name : ∃ c, k = .name c
  tag : k ≠ tag
  length : k ≠ .length
  overflow : k ≠ .overflow

/-- Arrays may have become longer, and maps may have got other entries; otherwise objects stay of their kind. -/
inductive Kind.Kept : Kind → Kind → Prop
  | same (k : Kind) : Kept k k
  | array {m n : Nat} {w : Bool} (h : m ≤ n) : Kept (.array m w) (.array n w)
  | map (es fs : List (Value × Value)) : Kept (.map es) (.map fs)

theorem Kind.Kept.trans {k l m : Kind} (hkl : Kept k l) (hlm : Kept l m) : Kept k m := by
  cases hkl with
  | same => exact hlm
  | array h =>
    cases hlm with
    | same => exact .array h
    | array h' => exact .array (h.trans h')
  | map =>
    cases hlm with
    | same => exact .map _ _
    | map => exact .map _ _

theorem Kind.Kept.of_array {n : Nat} {w : Bool} {k : Kind} (hkept : Kept (.array n w) k) : ∃ l ≥ n, k = .array l w := by
  cases hkept with
  | same => exact ⟨n, le_rfl, rfl⟩
  | array h => exact ⟨_, h, rfl⟩

/-- An object that was there, before and after. -/
structure Object.Kept (tag : Key) (o o' : Object) : Prop where
  kind : o.kind.Kept o'.kind
  proto : o'.proto = o.proto
  extensible : o'.extensible = o.extensible
  property : ∀ k, k.Steady tag → o'.property? k = o.property? k
  element : ∀ (i : Nat) (p : Property), o.elements[i]? = some p → o'.elements[i]? = some p

theorem Kind.Kept.proxy? {k l : Kind} (hkept : k.Kept l) : l.proxy? = k.proxy? := by cases hkept <;> rfl

theorem Kind.Kept.code? {c : Code} (hkept : (h.stored f).kind.Kept (h'.stored f).kind) (hc : h.code? f = some c) :
    h'.code? f = some c := by
  unfold Heap.code? at hc ⊢
  generalize (h.stored f).kind = k at hkept hc
  generalize (h'.stored f).kind = l at hkept ⊢
  cases hkept with
  | same => exact hc
  | array => cases hc
  | map => cases hc

theorem Object.Kept.refl (tag : Key) (o : Object) : Kept tag o o :=
  ⟨.same _, rfl, rfl, fun _ _ => rfl, fun _ _ => id⟩

theorem Object.Kept.trans {o o' o'' : Object} (hkept : Kept tag o o') (hkept' : Kept tag o' o'') : Kept tag o o'' :=
  ⟨hkept.kind.trans hkept'.kind, hkept'.proto.trans hkept.proto, hkept'.extensible.trans hkept.extensible,
    fun k hk => (hkept'.property k hk).trans (hkept.property k hk),
    fun i p hp => hkept'.element i p (hkept.element i p hp)⟩

/-- What the functions of a table do to a heap. -/
structure Marks (m : Memory) (h h' : Heap) : Prop where
  size : h'.objects.size = h.objects.size
  object : ∀ a, (h.object a).Kept (.ofText m.tag) (h'.object a)
  others : ∀ a, m.table ≠ .object a → (h'.object a).elements = (h.object a).elements ∧
    (m.untagged ≠ .object a → (h'.object a).kind = (h.object a).kind)
  tags : ∀ a p, h'.own? a (.ofText m.tag) = some p → h.own? a (.ofText m.tag) = some p ∨ IsHandle p.value
  table : ∀ t, m.table = .object t → IsTable h t → IsTable h' t
  map : ∀ u, m.untagged = .object u → IsHandleMap h u → IsHandleMap h' u

namespace Marks

theorem refl (m : Memory) (h : Heap) : Marks m h h :=
  ⟨rfl, fun _ => .refl _ _, fun _ _ => ⟨rfl, fun _ => rfl⟩, fun _ _ => .inl, fun _ _ => id, fun _ _ => id⟩

theorem trans (hmarks : Marks m h h') (hmarks' : Marks m h' h'') : Marks m h h'' where
  size := hmarks'.size.trans hmarks.size
  object a := (hmarks.object a).trans (hmarks'.object a)
  others a hne := by
    obtain ⟨helements, hkind⟩ := hmarks.others a hne
    obtain ⟨helements', hkind'⟩ := hmarks'.others a hne
    exact ⟨helements'.trans helements, fun hne => (hkind' hne).trans (hkind hne)⟩
  tags a p hp := (hmarks'.tags a p hp).elim (hmarks.tags a p) .inr
  table t ht h := hmarks'.table t ht (hmarks.table t ht h)
  map u hu h := hmarks'.map u hu (hmarks.map u hu h)

theorem storage (hmarks : Marks m h h') (a : Address) : h'.storage a = h.storage a :=
  Heap.storage_congr fun b _ => (hmarks.object b).kind.proxy?

theorem stored (hmarks : Marks m h h') (a : Address) : (h.stored a).Kept (.ofText m.tag) (h'.stored a) := by
  rw [Heap.stored, Heap.stored, hmarks.storage a]
  exact hmarks.object _

theorem own? (hmarks : Marks m h h') (hk : k.Steady (.ofText m.tag)) (a : Address) : h'.own? a k = h.own? a k := by
  rw [Heap.own?_of_ne_length hk.length, Heap.own?_of_ne_length hk.length, (hmarks.stored a).property k hk]

theorem agrees (hmarks : Marks m h h') (hk : k.Steady (.ofText m.tag)) : h.Agrees h' k :=
  ⟨hmarks.size.ge, fun a _ => (hmarks.stored a).proto, fun a _ => hmarks.own? hk a⟩

theorem code? {c : Code} (hmarks : Marks m h h') (hc : h.code? f = some c) : h'.code? f = some c :=
  (hmarks.stored f).kind.code? hc

theorem isProxy (hmarks : Marks m h h') (a : Address) : h'.isProxy a = h.isProxy a := by
  rw [Heap.isProxy_eq, Heap.isProxy_eq, (hmarks.object a).kind.proxy?]

end Marks

/-- A tag is a name of its own: none of those that the functions of a table look up, and no place of an array. -/
structure ClearTag (tag : String) : Prop where
  vocabulary : ∀ x ∈ vocabulary, (Key.ofText x).Steady (.ofText tag)
  name : ∃ x, Key.ofText tag = .name x
  length : Key.ofText tag ≠ .length
  overflow : Key.ofText tag ≠ .overflow

theorem IsTable.isProxy {t : Address} (htable : IsTable h t) : h.isProxy t = false := by
  obtain ⟨-, -, n, w, hkind, -⟩ := htable
  rw [Heap.isProxy, hkind]

theorem IsTable.get_length {t : Address} (htable : IsTable h t) {n : Nat} {w : Bool}
    (hkind : (h.object t).kind = .array n w) : h.get t .length = .nat n := by
  refine Heap.get_of_find? (p := ⟨.nat n, w, false, false⟩) (Heap.find?_of_own? ?_)
  rw [Heap.own?, Heap.stored, Heap.storage_of_not_isProxy htable.isProxy, hkind]
  rfl

theorem findWithin_bare {i : Nat} (hproxy : h.isProxy a = false) (hnone : (h.object a).elements[i]? = none)
    (hproto : ∀ b, (h.object a).proto = some b → ∀ n, h.findWithin (.index i) n b = none) (n : Nat) :
    h.findWithin (.index i) n a = none := by
  cases n with
  | zero => rfl
  | succ n =>
    rw [Heap.findWithin, Heap.own?_index hproxy, Heap.stored, Heap.storage_of_not_isProxy hproxy, hnone]
    cases hp : (h.object a).proto with
    | none => rfl
    | some b => exact hproto b hp n

/-- What an array holds under an index is its own. -/
theorem Bare.find?_index (hbare : Bare h) (hlibrary : Library h) (hproxy : h.isProxy a = false)
    (hproto : (h.object a).proto = some Heap.arrayProto) (i : Nat) :
    h.find? a (.index i) = (h.object a).elements[i]? := by
  obtain ⟨hproxy₁, hproto₁, -⟩ := hlibrary.objectProto
  obtain ⟨hproxy₂, hproto₂, -⟩ := hlibrary.arrayProto
  have hobject (n : Nat) : h.findWithin (.index i) n Heap.objectProto = none :=
    findWithin_bare hproxy₁ (hbare i).2 (by simp [hproto₁]) n
  have harray (n : Nat) : h.findWithin (.index i) n Heap.arrayProto = none :=
    findWithin_bare hproxy₂ (hbare i).1 (by simpa [hproto₂] using hobject) n
  rw [Heap.find?, Heap.findWithin, Heap.own?_index hproxy, Heap.stored, Heap.storage_of_not_isProxy hproxy, hproto]
  cases (h.object a).elements[i]? with
  | some p => rfl
  | none => exact harray h.objects.size

/-- The table is none of the arrays that others inherit from, where it is one at all. -/
def Memory.Aside (m : Memory) : Prop := m.table ≠ .object Heap.arrayProto ∧ m.table ≠ .object Heap.objectProto

namespace Marks

/-- The language's own objects stay in place. -/
theorem keeps (hmarks : Marks m h h') (hclear : ClearTag m.tag) (haside : m.Aside) : h.Keeps h' where
  agrees x hx := hmarks.agrees (hclear.vocabulary x hx)
  code f c := hmarks.code?
  maps u entries hkind := by
    have hkept := (hmarks.object u).kind
    rw [hkind] at hkept
    generalize (h'.object u).kind = k' at hkept ⊢
    cases hkept with
    | same => exact ⟨entries, rfl⟩
    | map _ es => exact ⟨es, rfl⟩
  protos a ha _ := by
    have hne : m.table ≠ .object a := by
      rcases ha with rfl | rfl
      · exact haside.1
      · exact haside.2
    exact ⟨hmarks.isProxy a, (hmarks.object a).proto, (hmarks.others a hne).1⟩
  global _ hkind := by
    have hkept := (hmarks.object Heap.global).kind
    rw [hkind] at hkept
    generalize (h'.object Heap.global).kind = k' at hkept ⊢
    cases hkept
    rfl

theorem bare (hmarks : Marks m h h') (haside : m.Aside) (hbare : Bare h) : Bare h' := by
  intro i
  rw [(hmarks.others _ haside.1).1, (hmarks.others _ haside.2).1]
  exact hbare i

end Marks

/-- The language's own objects are in place for the functions of a table. -/
structure Served (m : Memory) (h : Heap) : Prop where
  foundations : Foundations h
  works : m.Works h
  aside : m.Aside

theorem Served.marks (hmarks : Marks m h h') (hclear : ClearTag m.tag) (hserved : Served m h) : Served m h' :=
  have hkeeps := hmarks.keeps hclear hserved.aside
  ⟨hserved.foundations.keeps hkeeps, hserved.works.keeps hkeeps, hserved.aside⟩

/-- A table is at work: its slots, its map and the tags around are as its functions leave them. -/
structure Ready (m : Memory) (h : Heap) : Prop extends Served m h where
  bare : Bare h
  table : ∃ t, m.table = .object t ∧ IsTable h t
  map : ∃ u, m.untagged = .object u ∧ IsHandleMap h u
  tags : ∀ a p, h.own? a (.ofText m.tag) = some p → IsHandle p.value

theorem Ready.marks (hmarks : Marks m h h') (hclear : ClearTag m.tag) (hready : Ready m h) : Ready m h' := by
  obtain ⟨t, ht, htable⟩ := hready.table
  obtain ⟨u, hu, hmap⟩ := hready.map
  exact {
    hready.toServed.marks hmarks hclear with
    bare := hmarks.bare hready.aside hready.bare
    table := ⟨t, ht, hmarks.table t ht htable⟩
    map := ⟨u, hu, hmarks.map u hu hmap⟩
    tags := fun a p hp => (hmarks.tags a p hp).elim (hready.tags a p) id }

end ScriptBridge.Script
