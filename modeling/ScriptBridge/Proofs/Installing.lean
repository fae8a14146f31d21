import ScriptBridge.Proofs.Layouts
import ScriptBridge.Proofs.Remembering
import ScriptBridge.Proofs.RootPaths

/-! Installation of handle tables. Where the root can be read, a new table with the root in its first slot, a new map
and a converter that remembers both are made; then the root gets its tag, and the table and the converter their names. -/
namespace ScriptBridge.Script

variable {h h' h'' : Heap} {m : Memory} {a b f g t u : Address} {k : Key} {v root : Value} {i : Installation}

/-- A key under which none of the objects has a property that an installation makes. -/
structure Key.Unused (k : Key) : Prop where
  name : ∃ y, k = .name y
  length : k ≠ .length
  names : ∀ x ∈ ["name", "prototype", "constructor"], k ≠ .ofText x

/-- Objects are added with the properties that functions and arrays have, and no others. -/
def Heap.Extended (h h' : Heap) : Prop := ∀ k : Key, k.Unused → h.Adds k h'

namespace Heap.Extended

theorem refl (h : Heap) : h.Extended h := fun k _ => .refl k h

theorem trans (hext : h.Extended h') (hext' : h'.Extended h'') : h.Extended h'' := fun k hk =>
  (hext k hk).trans (hext' k hk)

theorem alloc (h : Heap) {o : Object} (hproxy : o.kind.proxy? = none)
    (hnone : ∀ k : Key, k.Unused → o.property? k = none) : h.Extended (h.alloc o).1 := fun k hk =>
  .alloc hk.length h hproxy (hnone k hk)

theorem grown (hext : h.Extended h') : h.Grown h' :=
  (hext (.name (.text "")) ⟨⟨_, rfl⟩, by decide, by decide⟩).toGrown

end Heap.Extended

/-- An object has what the object has that it inherits from, where it has nothing of its own. -/
theorem Heap.Holds.heir (hgrown : h.Grown h') (hsize : h.objects.size < h'.objects.size) (hv : h.Holds b k v)
    (hnone : h'.own? a k = none) (hproto : (h'.stored a).proto = some b) : h'.Holds a k v := by
  obtain ⟨p, hp, hpv⟩ := hv
  refine ⟨p, ?_, hpv⟩
  rw [Heap.find?, Heap.findWithin, hnone, hproto]
  exact (hgrown.agrees k).findWithin hsize hp

namespace Run

theorem outcome_allocFunction (code : Code) (name : String) (arity : Nat) (h : Heap) : ∃ h',
    outcome (allocFunction code name arity) h = (.ok (.object h.objects.size), h') ∧ h.Extended h' ∧
      h'.objects.size = h.objects.size + 2 ∧ (h'.object h.objects.size).kind.proxy? = none := by
  let o : Object := {
    kind := .function code
    proto := some Heap.functionProto
    names := [
      (.length, ⟨.nat arity, false, false, true⟩),
      (.ofText "name", ⟨.text name, false, false, true⟩),
      (.ofText "prototype", ⟨.object (h.objects.size + 1), true, false, false⟩)] }
  let p : Object :=
    { proto := some Heap.objectProto, names := [(.ofText "constructor", .hidden (.object h.objects.size))] }
  have hself : ((h.alloc o).1.alloc p).1.object h.objects.size = o := by
    rw [Heap.object_alloc_of_lt p (by simp), Heap.object_alloc_self]
  refine ⟨((h.alloc o).1.alloc p).1, rfl, ?_, by simp, by rw [hself]; rfl⟩
  refine (Heap.Extended.alloc h (o := o) rfl fun k hk => ?_).trans (.alloc _ (o := p) rfl fun k hk => ?_)
  · obtain ⟨y, rfl⟩ := hk.name
    have hname := hk.names "name" (by decide)
    have hprototype := hk.names "prototype" (by decide)
    simp [o, Object.property?, hk.length.symm, hname.symm, hprototype.symm]
  · obtain ⟨y, rfl⟩ := hk.name
    have hconstructor := hk.names "constructor" (by decide)
    simp [p, Object.property?, hconstructor.symm]

theorem outcome_constructMap (hu : h.code? u = some (.builtin .map)) (invoke : Caller) :
    outcome (construct invoke (.object u) []) h =
      (.ok (.object h.objects.size), (h.alloc { kind := .map [], proto := some Heap.mapProto }).1) := by
  have hcode : h.codeOf? (.object u) = some (.builtin .map) := hu
  rw [construct, outcome_bind_ok (outcome_get h), hcode]
  rfl

theorem outcome_allocArray (root : Value) (h : Heap) : ∃ h', outcome (allocArray [root]) h =
    (.ok (.object h.objects.size), h') ∧ h.Extended h' ∧ h'.objects.size = h.objects.size + 1 ∧
      ArrayOf h' h.objects.size [root] ∧ (h'.object h.objects.size).proto = some Heap.arrayProto ∧
      (h'.object h.objects.size).extensible = true := by
  let o : Object := { kind := .array 1 true, proto := some Heap.arrayProto, elements := elementsOf [root] }
  have hself : (h.alloc o).1.object h.objects.size = o := Heap.object_alloc_self h o
  refine ⟨(h.alloc o).1, rfl, .alloc h rfl fun k hk => ?_, by simp, ⟨?_, ?_, by simp⟩, ?_, ?_⟩
  · obtain ⟨y, rfl⟩ := hk.name
    rfl
  · rw [hself]
    rfl
  · rw [hself]
    intro j
    have hfills := Fills.empty.insert root j
    simpa [o, elementsOf] using hfills
  · rw [hself]
  · rw [hself]

end Run

theorem Expr.IsPath.extended {e : Expr} (he : e.IsPath) (s : Scope) (h : Heap) :
    h.Extended (outcome (e.evaluate s) h).2 := fun _ hk => he.adds hk.length hk.name s h

namespace Installation

/-- A function gets other code. -/
private def recode (h : Heap) (f : Address) (c : Code) : Heap := h.setObject f { h.object f with kind := .function c }

/-- Some functions have got other code, and nothing else has changed. -/
private structure Recoded (fs : List Address) (h h' : Heap) : Prop where
  size : h'.objects.size = h.objects.size
  proxy : ∀ a, (h'.object a).kind.proxy? = (h.object a).kind.proxy?
  property : ∀ a k, (h'.object a).property? k = (h.object a).property? k
  other : ∀ a ∉ fs, h'.object a = h.object a

namespace Recoded

variable {fs gs : List Address}

private theorem one (hf : (h.object f).kind.proxy? = none) (c : Code) : Recoded [f] h (recode h f c) := by
  have hother {a : Address} (ha : a ≠ f) : (recode h f c).object a = h.object a := Heap.object_setObject_of_ne _ ha
  have hself : (recode h f c).object f = h.object f ∨
      (recode h f c).object f = { h.object f with kind := .function c } := by
    by_cases hmade : f < h.objects.size
    · exact .inr (Heap.object_setObject_self _ hmade)
    · exact .inl (by rw [recode, Heap.setObject_of_size_le _ (Nat.le_of_not_lt hmade)])
  refine ⟨Heap.size_setObject _ _ _, fun a => ?_, fun a k => ?_, fun a ha => hother (List.ne_of_not_mem_cons ha)⟩
  · by_cases ha : a = f
    · subst ha
      rcases hself with hself | hself <;> rw [hself]
      exact hf.symm
    · rw [hother ha]
  · by_cases ha : a = f
    · subst ha
      rcases hself with hself | hself <;> rw [hself]
      cases k <;> rfl
    · rw [hother ha]

private theorem trans (hre : Recoded fs h h') (hre' : Recoded gs h' h'') : Recoded (fs ++ gs) h h'' where
  size := hre'.size.trans hre.size
  proxy a := (hre'.proxy a).trans (hre.proxy a)
  property a k := (hre'.property a k).trans (hre.property a k)
  other a ha := by
    rw [List.mem_append, not_or] at ha
    exact (hre'.other a ha.2).trans (hre.other a ha.1)

private theorem extended {h₀ : Heap} (hre : Recoded fs h h') (hfs : ∀ f ∈ fs, h₀.objects.size ≤ f)
    (hext : h₀.Extended h) : h₀.Extended h' := by
  intro k hk
  have hadds := hext k hk
  refine ⟨⟨hadds.size.trans_eq hre.size.symm, fun a ha => ?_⟩, fun a p hp => hadds.old a p ?_⟩
  · rw [hre.other a fun hmem => Nat.not_le_of_lt ha (hfs a hmem), hadds.object a ha]
  · rwa [Heap.own?_of_ne_length hk.length, Heap.stored, Heap.storage_congr fun b _ => hre.proxy b, hre.property,
      ← Heap.stored, ← Heap.own?_of_ne_length hk.length] at hp

end Recoded

/-- The functions of a new table get what they remember. -/
private theorem recoded_complete (m : Memory) (hf : (h.object f).kind.proxy? = none)
    (hg : (h.object g).kind.proxy? = none) (ha : (h.object a).kind.proxy? = none) (hmade : a < h.objects.size) :
    ∃ h', complete m [(.tag, .object f), (.register, .object g), (.convert, .object a)] h = h' ∧
      Recoded [f, g, a] h h' ∧ h'.code? a = some (.tool .convert m) := by
  have hfirst := Recoded.one hf (.tool .tag m)
  have hsecond := Recoded.one (hfirst.proxy g ▸ hg) (.tool .register m)
  have htwo := hfirst.trans hsecond
  have hthree := htwo.trans (.one (htwo.proxy a ▸ ha) (.tool .convert m))
  refine ⟨recode (recode (recode h f (.tool .tag m)) g (.tool .register m)) a (.tool .convert m), rfl, hthree, ?_⟩
  have hself : (recode (recode (recode h f (.tool .tag m)) g (.tool .register m)) a (.tool .convert m)).object a =
      { (recode (recode h f (.tool .tag m)) g (.tool .register m)).object a with kind := .function (.tool .convert m) } :=
    Heap.object_setObject_self _ (by rwa [htwo.size])
  rw [Heap.code?, Heap.stored, Heap.storage_of_not_isProxy (by rw [Heap.isProxy, hself]), hself]

/-- What an installation has made before the root is remembered. -/
structure Built (i : Installation) (m : Memory) (root : Value) (f : Address) (h h' : Heap) : Prop where
  extended : h.Extended h'
  tag : m.tag = i.tag
  scheme : m.scheme = i.scheme
  works : m.Works h'
  table : ∃ t, m.table = .object t ∧ h.objects.size ≤ t ∧ t < h'.objects.size ∧ ArrayOf h' t [root] ∧
    (h'.object t).proto = some Heap.arrayProto
  room : ∀ t, m.table = .object t → (h'.object t).extensible = true
  map : ∃ u, m.untagged = .object u ∧ u < h'.objects.size ∧ (h'.object u).kind = .map []
  young : ∀ u, m.untagged = .object u → h.objects.size ≤ u
  converter : h'.code? f = some (.tool .convert m)

/-- The table and the converter get their names. -/
def name (i : Installation) (m : Memory) (f : Address) : Run Value := do
  Run.assign (.object Heap.global) (.ofText i.table) m.table
  Run.assign (.object Heap.global) (.ofText i.converter) (.object f)
  return .undefined

/-- The last steps of an installation: the root is remembered, and names are given. -/
def finish (i : Installation) (m : Memory) (root : Value) (f : Address) : Run Value := do
  if !root.isNullish then Converter.remember Run.invoke m root (.nat 0)
  i.name m f

/-- An installation fails with its root, or it makes a table and is then about to finish. -/
theorem outcome_run (hroot : i.root.IsPath) (hfoundations : Foundations h) :
    (∃ e h', outcome i.run h = (.error e, h') ∧ h.Extended h') ∨
      ∃ m root f h', Built i m root f h h' ∧ outcome i.run h = outcome (i.finish m root f) h' := by
  let nothing : Memory := ⟨.undefined, .undefined, .undefined, i.tag, i.scheme⟩
  obtain ⟨h₁, htagger, hext₁, hsize₁, hkind₁⟩ := Run.outcome_allocFunction (.tool .tag nothing) "tag" 2 h
  obtain ⟨h₂, hregistrar, hext₂, hsize₂, hkind₂⟩ := Run.outcome_allocFunction (.tool .register nothing) "register" 1 h₁
  obtain ⟨h₃, hconverter, hext₃, hsize₃, hkind₃⟩ := Run.outcome_allocFunction (.tool .convert nothing) "convert" 1 h₂
  rw [run, outcome_bind_ok (Run.outcome_global hfoundations.globalThis), outcome_bind_ok htagger,
    outcome_bind_ok hregistrar, outcome_bind_ok hconverter]
  have hext₀₃ := (hext₁.trans hext₂).trans hext₃
  let scope : Scope := ⟨.undefined, [("global", .object Heap.global), ("table", .undefined), ("hasOwn", .undefined),
    ("untagged", .undefined), ("tag", .object h.objects.size), ("register", .object h₁.objects.size),
    ("convert", .object h₂.objects.size)], some [.object Heap.global]⟩
  have hext₄ := hroot.extended scope h₃
  rcases hresult : outcome (i.root.evaluate scope) h₃ with ⟨e | root, h₄⟩
  · rw [hresult] at hext₄
    exact .inl ⟨e, h₄, outcome_bind_error hresult, hext₀₃.trans hext₄⟩
  · rw [hresult] at hext₄
    right
    obtain ⟨h₅, htable, hext₅, hsize₅, harray, hproto, hroom₅⟩ := Run.outcome_allocArray root h₄
    have hgrown₅ := (((hext₀₃.trans hext₄).trans hext₅).grown)
    obtain ⟨o, p, q, ho, -, hp, hq, hqcode, hcall⟩ := hfoundations.object
    obtain ⟨w, hw, hwcode⟩ := hfoundations.map
    have hhasOwn : outcome (Run.read (.object p) (.ofText "hasOwnProperty")) h₅ = (.ok (.object q), h₅) := by
      rw [Run.outcome_read_object, (hgrown₅.holds hq).get_eq]
    have hprototype : outcome (Run.read (.object o) (.ofText "prototype")) h₅ = (.ok (.object p), h₅) := by
      rw [Run.outcome_read_object, (hgrown₅.holds hp).get_eq]
    rw [outcome_bind_ok hresult, outcome_bind_ok htable, outcome_bind_ok (Run.outcome_global (hgrown₅.holds ho)),
      outcome_bind_ok hprototype, outcome_bind_ok hhasOwn, outcome_bind_ok (Run.outcome_global (hgrown₅.holds hw)),
      outcome_bind_ok (Run.outcome_constructMap (hgrown₅.code? hwcode) _), outcome_bind_ok (outcome_modify _ _)]
    let map : Object := { kind := .map [], proto := some Heap.mapProto }
    let m : Memory := ⟨.object h₄.objects.size, .object q, .object h₅.objects.size, i.tag, i.scheme⟩
    let h₆ : Heap := (h₅.alloc map).1
    have hext₆ : h₅.Extended h₆ := .alloc h₅ rfl fun k hk => by
      obtain ⟨y, rfl⟩ := hk.name
      rfl
    have hext₃₆ : h₃.Extended h₆ := (hext₄.trans hext₅).trans hext₆
    have hsize₆ : h₆.objects.size = h₅.objects.size + 1 := Heap.size_alloc _ _
    have hsize₄ : h₃.objects.size ≤ h₄.objects.size := hext₄.grown.size
    have htagged : (h₆.object h.objects.size).kind.proxy? = none := by
      rw [((hext₂.trans hext₃).trans hext₃₆).grown.object _ (by omega), hkind₁]
    have hregistered : (h₆.object h₁.objects.size).kind.proxy? = none := by
      rw [(hext₃.trans hext₃₆).grown.object _ (by omega), hkind₂]
    have hconverted : (h₆.object h₂.objects.size).kind.proxy? = none := by
      rw [hext₃₆.grown.object _ (by omega), hkind₃]
    have hroom : h₂.objects.size < h₆.objects.size := by omega
    obtain ⟨h₇, hcomplete, hre, hcode⟩ := recoded_complete m htagged hregistered hconverted hroom
    have hsize₇ := hre.size
    have hext : h.Extended h₇ := hre.extended (by simp; omega) (hext₀₃.trans hext₃₆)
    have hfresh : h.objects.size ≤ h₄.objects.size ∧ h₄.objects.size < h₅.objects.size ∧
        h₅.objects.size < h₇.objects.size := by omega
    have hother {a : Address} (ha : h₃.objects.size ≤ a) : h₇.object a = h₆.object a := by
      refine hre.other a fun hmem => ?_
      simp only [List.mem_cons, List.not_mem_nil, or_false] at hmem
      rcases hmem with rfl | rfl | rfl <;> omega
    have hmap : h₇.object h₅.objects.size = map := by
      rw [hother (hsize₄.trans hfresh.2.1.le)]
      exact Heap.object_alloc_self h₅ map
    have harray₇ : h₇.object h₄.objects.size = h₅.object h₄.objects.size := by
      rw [hother hsize₄]
      exact Heap.object_alloc_of_lt map hfresh.2.1
    have hstored : h₇.stored h₅.objects.size = map := by
      rw [Heap.stored, Heap.storage_of_not_isProxy (by rw [Heap.isProxy, hmap]), hmap]
    have hoffers {name : String} {b : Builtin} (hb : h.Offers Heap.mapProto name b) :
        h₇.Offers h₅.objects.size name b := by
      obtain ⟨g, hg, hgcode⟩ := hb
      refine ⟨g, hg.heir hext.grown (by omega) ?_ (by rw [hstored]), hext.grown.code? hgcode⟩
      rw [Heap.own?, hstored]
      cases Key.ofText name <;> rfl
    refine ⟨m, root, h₂.objects.size, h₇, ?_, by rw [← hcomplete]; rfl⟩
    exact {
      extended := hext
      tag := rfl
      scheme := rfl
      works := ⟨⟨q, rfl, hext.grown.code? hqcode, hext.grown.offers hcall⟩,
        ⟨_, [], rfl, by rw [hmap], hoffers hfoundations.mapGet, hoffers hfoundations.mapSet⟩⟩
      table := ⟨_, rfl, hfresh.1, hfresh.2.1.trans hfresh.2.2, harray.of_object_eq harray₇, by rw [harray₇, hproto]⟩
      room := by
        rintro t ⟨⟩
        rw [harray₇, hroom₅]
      map := ⟨_, rfl, hfresh.2.2, by rw [hmap]⟩
      young := by
        rintro u ⟨⟩
        exact hfresh.1.trans hfresh.2.1.le
      converter := hcode }

end Installation

/-! The names of an installation are apart from those that the scripts of a bridge use themselves. -/

/-- What the scripts of a bridge look up, and the name under which an object has what it inherits from. -/
def spoken : List String := "length" :: "__proto__" :: vocabulary

theorem Key.ofText_identifier {x : String} (hx : isIdentifier x.toList = true) :
    ofText x = .name (.text x) ∧ ofText x ≠ overflow := by
  obtain ⟨c, hc, hdigit⟩ : ∃ c ∈ x.toList, c.isDigit = false := by
    cases hcs : x.toList with
    | nil =>
      rw [hcs] at hx
      cases hx
    | cons c cs =>
      rw [hcs, isIdentifier, Bool.and_eq_true] at hx
      refine ⟨c, List.mem_cons_self, ?_⟩
      by_contra hdigit
      have hstart := isWordStart_digit (by simpa using hdigit)
      simp [isWordStart, hx.1] at hstart
  have hname : ofText x = .name (.text x) := by
    have hall : x.toList.all Char.isDigit = false := List.all_eq_false.2 ⟨c, hc, by simp [hdigit]⟩
    rw [ofText, ofChars, hall, Bool.false_and, Bool.false_and, if_neg Bool.false_ne_true, Content.ofChars,
      String.ofList_toList]
  exact ⟨hname, fun h => overflow_ne hc hdigit (h.symm.trans hname)⟩

theorem Key.ofText_vocabulary : ∀ x ∈ vocabulary, isIdentifier x.toList = true := by decide

theorem clearTag_of_identifier {tag : String} (hidentifier : isIdentifier tag.toList = true) (htag : tag ∉ spoken) :
    ClearTag tag := by
  have hlength : Key.length = .ofText "length" := by decide
  have hne {x : String} (hx : x ∈ spoken) : x ≠ tag := ne_of_mem_of_not_mem hx htag
  refine ⟨fun x hx => ?_, ⟨_, (Key.ofText_identifier hidentifier).1⟩, ?_, (Key.ofText_identifier hidentifier).2⟩
  · have hword := Key.ofText_identifier (Key.ofText_vocabulary x hx)
    have hlong : "length" ∉ vocabulary := by decide
    refine ⟨⟨_, hword.1⟩, Key.ofText_ne (hne (.tail _ (.tail _ hx))), ?_, hword.2⟩
    rw [hlength]
    exact Key.ofText_ne (ne_of_mem_of_not_mem hx hlong)
  · rw [hlength]
    exact Key.ofText_ne (hne (.head _)).symm

/-- The installation that a configuration describes. -/
def Installation.of (c : Config) (root : Expr) : Installation :=
  ⟨root, c.tagProperty, String.ofList Handle.scheme, c.tableName, c.converterName⟩

/-- The names of an installation, as a valid configuration gives them. -/
structure Installation.Named (i : Installation) : Prop where
  identifier : isIdentifier i.tag.toList = true
  tag : i.tag ∉ spoken
  table : i.table ∉ spoken
  converter : i.converter ∉ spoken
  apart : i.table ≠ i.converter

/-- What the functions of a table remember, without the table. -/
def Memory.tableless (m : Memory) : Memory := { m with table := .undefined }

namespace Installation

open Realm (addProperty)

variable {p q : Property}

theorem Named.clearTag (hnamed : i.Named) : ClearTag i.tag := clearTag_of_identifier hnamed.identifier hnamed.tag

theorem Named.not_mem {x : String} (hx : x ∉ spoken) : x ∉ vocabulary ∧ Key.ofText x ≠ .proto := by
  have hproto : Key.proto = .ofText "__proto__" := by decide
  refine ⟨fun hmem => hx (.tail _ (.tail _ hmem)), ?_⟩
  rw [hproto]
  exact Key.ofText_ne fun heq => hx (heq ▸ .tail _ (.head _))

/-- What the functions of a new table work with is in place before the table has a name. -/
theorem Built.served (hfoundations : Foundations h) (hbuilt : Built i m root f h h') : Served m.tableless h' where
  foundations := hfoundations.keeps hbuilt.extended.grown.keeps
  works := ⟨hbuilt.works.hasOwn, hbuilt.works.untagged⟩
  aside := ⟨nofun, nofun⟩

theorem Built.clearTag (hbuilt : Built i m root f h h') (hnamed : i.Named) : ClearTag m.tag := by
  rw [hbuilt.tag]
  exact hnamed.clearTag

/-- Once a table is made, the root is remembered, and the names are about to be given. -/
theorem Built.outcome_remembered (hnamed : i.Named) (hfoundations : Foundations h) (hbuilt : Built i m root f h h') :
    ∃ h₁, outcome (i.finish m root f) h' = outcome (i.name m f) h₁ ∧ Marks m.tableless h' h₁ ∧ Entered m root 0 h' h₁ ∧
      ∀ a, root = .object a → Remembered m a 0 h' h₁ := by
  cases hnullish : root.isNullish with
  | true =>
    refine ⟨h', by rw [finish, hnullish]; rfl, .refl _ h', .refl m root 0 h', ?_⟩
    rintro a rfl
    cases hnullish
  | false =>
    have hclear : ClearTag m.tableless.tag := hbuilt.clearTag hnamed
    obtain ⟨h₁, hrun, hmarks, hentered, hremembered⟩ := Converter.outcome_remember (m := m.tableless) (n := 0)
      (Run.within_invoke.mono (by decide)) hclear (hbuilt.served hfoundations) (by decide) root
    refine ⟨h₁, by rw [finish, hnullish]; exact outcome_bind_ok hrun, hmarks,
      ⟨hentered.object, hentered.property, hentered.tags, hentered.map⟩, fun a ha => ?_⟩
    have hr := hremembered a ha
    exact ⟨hr.recalls, hr.refused, hr.tags, hr.known⟩

/-- How an installation ends whose table is made: the root is remembered, and either a name is refused, or both names
are given. -/
theorem Built.outcome_finish (hnamed : i.Named) (hfoundations : Foundations h) (hbuilt : Built i m root f h h') :
    ∃ h₁, Marks m.tableless h' h₁ ∧ Entered m root 0 h' h₁ ∧ (∀ a, root = .object a → Remembered m a 0 h' h₁) ∧
      ((∃ e, outcome (i.finish m root f) h' = (.error e, h₁)) ∨
        ∃ p, Run.Assigned h₁ i.table m.table p ∧
          (¬Run.Takes (addProperty h₁ Heap.global i.table p) i.converter ∧
              (∃ e, outcome (i.finish m root f) h' = (.error e, addProperty h₁ Heap.global i.table p)) ∨
            ∃ q, Run.Assigned (addProperty h₁ Heap.global i.table p) i.converter (.object f) q ∧
              outcome (i.finish m root f) h' = (.ok .undefined,
                addProperty (addProperty h₁ Heap.global i.table p) Heap.global i.converter q))) := by
  obtain ⟨h₁, hrun, hmarks, hentered, hremembered⟩ := hbuilt.outcome_remembered hnamed hfoundations
  have hglobal := ((hbuilt.served hfoundations).marks hmarks (hbuilt.clearTag hnamed)).foundations.global
  refine ⟨h₁, hmarks, hentered, hremembered, ?_⟩
  rw [hrun, name]
  rcases Run.outcome_assign_global hglobal (Named.not_mem hnamed.table).2 m.table with ⟨p, hp, htable⟩ | ⟨-, e, htable⟩
  · have hglobal' : ((addProperty h₁ Heap.global i.table p).object Heap.global).kind = .ordinary := by
      rw [(Realm.kind_addProperty h₁ _ i.table p _).1, hglobal]
    refine .inr ⟨p, hp, ?_⟩
    rw [outcome_bind_ok htable]
    rcases Run.outcome_assign_global hglobal' (Named.not_mem hnamed.converter).2 (.object f) with
      ⟨q, hq, hconverter⟩ | ⟨hrefused, e, hconverter⟩
    · exact .inr ⟨q, hq, by rw [outcome_bind_ok hconverter]; rfl⟩
    · exact .inl ⟨hrefused, e, outcome_bind_error hconverter⟩
  · exact .inl ⟨e, outcome_bind_error htable⟩

/-- An installation at its end: a table is made, the root is remembered, and the names are given. -/
inductive Finished (i : Installation) (m : Memory) (root : Value) (h : Heap) : Heap → Prop
  | intro {f : Address} {h₀ h₁ : Heap} {p q : Property} (built : Built i m root f h h₀) (marks : Marks m.tableless h₀ h₁)
      (entered : Entered m root 0 h₀ h₁) (remembered : ∀ a, root = .object a → Remembered m a 0 h₀ h₁)
      (table : Run.Assigned h₁ i.table m.table p)
      (converter : Run.Assigned (addProperty h₁ Heap.global i.table p) i.converter (.object f) q) :
      Finished i m root h (addProperty (addProperty h₁ Heap.global i.table p) Heap.global i.converter q)

/-- An installation that succeeds comes to its end. -/
theorem finished_of_run (hroot : i.root.IsPath) (hnamed : i.Named) (hfoundations : Foundations h)
    (hrun : outcome i.run h = (.ok v, h')) : ∃ m root, Finished i m root h h' := by
  rcases outcome_run hroot hfoundations with ⟨e, h₀, herror, -⟩ | ⟨m, root, f, h₀, hbuilt, hfinish⟩
  · rw [herror] at hrun
    cases hrun
  rw [hfinish] at hrun
  obtain ⟨h₁, hmarks, hentered, hremembered, ⟨e, herror⟩ | ⟨p, hp, ⟨-, e, herror⟩ | ⟨q, hq, hdone⟩⟩⟩ :=
    hbuilt.outcome_finish hnamed hfoundations
  · rw [herror] at hrun
    cases hrun
  · rw [herror] at hrun
    cases hrun
  · rw [hdone] at hrun
    obtain rfl := congrArg Prod.snd hrun
    exact ⟨m, root, hbuilt, hmarks, hentered, hremembered, hp, hq⟩

/-- A new table with the root in its only slot, and a converter for it, are in place under their names. -/
structure Placed (i : Installation) (m : Memory) (root : Value) (h h' : Heap) : Prop where
  foundations : Foundations h'
  works : m.Works h'
  table : ∃ t, m.table = .object t ∧ h.objects.size ≤ t ∧ ArrayOf h' t [root] ∧
    (h'.object t).proto = some Heap.arrayProto
  named : h'.Holds Heap.global (.ofText i.table) m.table
  converter : ∃ f, h'.Holds Heap.global (.ofText i.converter) (.object f) ∧ h'.code? f = some (.tool .convert m)
  tag : m.tag = i.tag
  scheme : m.scheme = i.scheme

/-- The new table is not touched while the root is remembered. -/
theorem Built.table_marks {h₁ : Heap} (hbuilt : Built i m root f h h') (hmarks : Marks m.tableless h' h₁) :
    ∃ t, m.table = .object t ∧ h.objects.size ≤ t ∧ t < h₁.objects.size ∧ ArrayOf h₁ t [root] ∧
      (h₁.object t).proto = some Heap.arrayProto := by
  obtain ⟨t, ht, hfresh, hmade, harray, hproto⟩ := hbuilt.table
  obtain ⟨u, hu, -, hmap⟩ := hbuilt.map
  have hne : m.tableless.untagged ≠ .object t := by
    have huntagged : m.tableless.untagged = .object u := hu
    rw [huntagged]
    rintro ⟨⟩
    rw [harray.kind] at hmap
    cases hmap
  obtain ⟨helements, hkind⟩ := hmarks.others t nofun
  exact ⟨t, ht, hfresh, by rwa [hmarks.size], ⟨by rw [hkind hne, harray.kind], by rw [helements]; exact harray.elements,
    harray.bound⟩, by rw [(hmarks.object t).proto, hproto]⟩

namespace Finished

theorem placed (hnamed : i.Named) (hfoundations : Foundations h) (hfinished : Finished i m root h h') :
    Placed i m root h h' := by
  obtain ⟨hbuilt, hmarks, -, -, hp, hq⟩ := hfinished
  rename_i f h₀ h₁ p q
  have hserved := (hbuilt.served hfoundations).marks hmarks (hbuilt.clearTag hnamed)
  have hkeeps := Realm.keeps_addProperty h₁ p (Named.not_mem hnamed.table).1
  have hkeeps' := Realm.keeps_addProperty (addProperty h₁ Heap.global i.table p) q (Named.not_mem hnamed.converter).1
  have hmade : Heap.global < h₁.objects.size := Heap.lt_size_of_holds hserved.foundations.globalThis
  have hordinary := hserved.foundations.global
  obtain ⟨t, ht, hfresh, htmade, harray, hproto⟩ := hbuilt.table_marks hmarks
  have hne : t ≠ Heap.global := by
    rintro rfl
    rw [harray.kind] at hordinary
    cases hordinary
  have htable : (addProperty (addProperty h₁ Heap.global i.table p) Heap.global i.converter q).object t = h₁.object t := by
    rw [Realm.object_addProperty_of_ne _ _ _ hne, Realm.object_addProperty_of_ne _ _ _ hne]
  refine {
    foundations := (hserved.foundations.keeps hkeeps).keeps hkeeps'
    works := ?_
    table := ⟨t, ht, hfresh, harray.of_object_eq htable, by rw [htable, hproto]⟩
    named := ⟨p, Heap.find?_of_own? ?_, hp.value_eq⟩
    converter := ⟨f, ⟨q, Heap.find?_of_own? ?_, hq.value_eq⟩, ?_⟩
    tag := hbuilt.tag
    scheme := hbuilt.scheme }
  · have hworks : m.Works h₁ := ⟨hserved.works.hasOwn, hserved.works.untagged⟩
    exact (hworks.keeps hkeeps).keeps hkeeps'
  · rw [Realm.own?_addProperty_of_ne _ _ _ (Key.ofText_ne hnamed.apart), Realm.own?_addProperty_self hmade hordinary]
  · exact Realm.own?_addProperty_self (by simpa using hmade) (by rw [(Realm.kind_addProperty h₁ _ _ p _).1, hordinary]) _ _
  · rw [Realm.code?_addProperty, Realm.code?_addProperty]
    exact hmarks.code? hbuilt.converter

/-- The names are given without a change of tags. -/
theorem own?_names (htag : m.tag = i.tag) (htable : i.tag ≠ i.table) (hconverter : i.tag ≠ i.converter)
    (h : Heap) (p q : Property) (a : Address) :
    (addProperty (addProperty h Heap.global i.table p) Heap.global i.converter q).own? a (.ofText m.tag) =
      h.own? a (.ofText m.tag) := by
  rw [htag, Realm.own?_addProperty_of_ne _ _ _ (Key.ofText_ne hconverter),
    Realm.own?_addProperty_of_ne _ _ _ (Key.ofText_ne htable)]

/-- The handle of the root is found, where the tag is none of the names that are given. -/
theorem recalls (htable : i.tag ≠ i.table) (hconverter : i.tag ≠ i.converter) (hfinished : Finished i m root h h')
    (ha : root = .object a) : m.Recalls h' a 0 := by
  obtain ⟨hbuilt, hmarks, -, hremembered, hp, hq⟩ := hfinished
  rcases (hremembered a ha).recalls with ⟨r, hr, hsame⟩ | hknown
  · exact .inl ⟨r, by rwa [own?_names hbuilt.tag htable hconverter], hsame⟩
  · refine .inr ((Memory.known_congr (fun u _ => ?_) _).trans hknown)
    rw [(Realm.kind_addProperty _ _ _ _ u).1, (Realm.kind_addProperty _ _ _ _ u).1]

/-- A new table is none of the arrays that others inherit from. -/
theorem aside (hfoundations : Foundations h) (hfinished : Finished i m root h h') : m.Aside := by
  obtain ⟨hbuilt, -, -, -, -, -⟩ := hfinished
  obtain ⟨t, ht, hfresh, -⟩ := hbuilt.table
  have hyoung {b : Address} (hb : b ≤ Heap.arrayProto) : m.table ≠ .object b := by
    rw [ht]
    rintro ⟨⟩
    exact Nat.not_lt_of_le (hfresh.trans hb) hfoundations.library.arrayProto_made
  exact ⟨hyoung (by decide), hyoung (by decide)⟩

/-- An installation gives arrays nothing to inherit under an index. -/
theorem bare (hfoundations : Foundations h) (hbare : Bare h) (hfinished : Finished i m root h h') : Bare h' := by
  obtain ⟨hbuilt, hmarks, -, -, hp, hq⟩ := hfinished
  rename_i f h₀ h₁ p q
  have hprotos : Heap.arrayProto < h.objects.size := hfoundations.library.arrayProto_made
  have hlater {a : Address} (ha : a = Heap.arrayProto ∨ a = Heap.objectProto) :
      ((addProperty (addProperty h₁ Heap.global i.table p) Heap.global i.converter q).object a).elements =
        (h.object a).elements := by
    have hne : a ≠ Heap.global := by rcases ha with rfl | rfl <;> decide
    have hmade : a < h.objects.size := by
      rcases ha with rfl | rfl
      · exact hprotos
      · exact Nat.lt_trans (by decide) hprotos
    rw [Realm.object_addProperty_of_ne _ _ _ hne, Realm.object_addProperty_of_ne _ _ _ hne, (hmarks.others a nofun).1,
      hbuilt.extended.grown.object a hmade]
  exact fun j => by rw [hlater (.inl rfl), hlater (.inr rfl)]; exact hbare j

/-- The map of a new table gives handles. -/
theorem handleMap (hfinished : Finished i m root h h') : ∃ u, m.untagged = .object u ∧ IsHandleMap h' u := by
  obtain ⟨hbuilt, hmarks, -, -, hp, hq⟩ := hfinished
  obtain ⟨u, hu, humade, hkind⟩ := hbuilt.map
  obtain ⟨humade', entries, hentries, hhandles⟩ := hmarks.map u hu ⟨humade, [], hkind, nofun⟩
  exact ⟨u, hu, by simpa using humade', entries,
    by rw [(Realm.kind_addProperty _ _ _ _ u).1, (Realm.kind_addProperty _ _ _ _ u).1, hentries], hhandles⟩

/-- The tags after an installation: those that there were, and the handle of the root. -/
theorem tags (hunused : (Key.ofText i.tag).Unused) (htable : i.tag ≠ i.table) (hconverter : i.tag ≠ i.converter)
    (hfinished : Finished i m root h h') {p : Property} (hp : h'.own? a (.ofText m.tag) = some p) :
    h.own? a (.ofText i.tag) = some p ∨ p.value = .nat 0 := by
  obtain ⟨hbuilt, -, hentered, -, -, -⟩ := hfinished
  rw [own?_names hbuilt.tag htable hconverter] at hp
  refine (hentered.tags a p hp).imp_left fun hold => ?_
  exact (hbuilt.extended (.ofText i.tag) hunused).old a p (hbuilt.tag ▸ hold)

end Finished

end Installation
end ScriptBridge.Script
