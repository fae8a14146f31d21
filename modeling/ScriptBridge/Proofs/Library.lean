import ScriptBridge.Proofs.Lookups
import ScriptBridge.Proofs.Outcome
import ScriptBridge.Proofs.WholeNumbers
import ScriptBridge.Script.Call

/-! The language's own objects, as far as the functions of a handle table use them, and what calls of them do. -/
namespace ScriptBridge.Script

/-- The language's own objects are in place, as far as conversion goes: what the converter and the texts of numbers
look up is found, and what arrays inherit under an index may be assigned. -/
structure Library (h : Heap) : Prop where
  array : ∃ f, h.Holds Heap.global (.ofText "Array") (.object f) ∧ h.code? f = some (.builtin .array) ∧
    h.Offers f "isArray" .isArray
  nan : h.Holds Heap.global (.ofText "NaN") (.number (.float Double.nan))
  infinity : h.Holds Heap.global (.ofText "Infinity") (.number (.float Double.infinity))
  arrayProto : h.isProxy Heap.arrayProto = false ∧ (h.object Heap.arrayProto).proto = some Heap.objectProto ∧
    ∀ (i : Nat) (p : Property), (h.object Heap.arrayProto).elements[i]? = some p → p.writable = true
  objectProto : h.isProxy Heap.objectProto = false ∧ (h.object Heap.objectProto).proto = none ∧
    ∀ (i : Nat) (p : Property), (h.object Heap.objectProto).elements[i]? = some p → p.writable = true

/-- The names under which the functions of a table look up the language's own objects. -/
def vocabulary : List String :=
  ["Array", "isArray", "Object", "defineProperty", "prototype", "hasOwnProperty", "call", "Map", "get", "set",
    "globalThis", "NaN", "Infinity"]

open Heap (Holds Offers)

variable {h h' : Heap} {a f : Address} {k : Key} {v this : Value} {args : List Value} {x name : String} {b : Builtin}

namespace Run

@[simp] theorem outcome_read_object (a : Address) (k : Key) (h : Heap) :
    outcome (read (.object a) k) h = (.ok (h.get a k), h) := rfl

theorem outcome_define (a : Address) (k : Key) (d : Descriptor) (h : Heap) :
    outcome (define a k d) h = (.ok (h.define a k d).1, (h.define a k d).2) := rfl

theorem outcome_global? (hv : h.Holds Heap.global (.ofText x) v) : outcome (global? x) h = (.ok (some v), h) := by
  obtain ⟨p, hp, rfl⟩ := hv
  have hhas : h.has Heap.global (.ofText x) = true := by simp [Heap.has, hp]
  rw [global?, outcome_bind_ok (outcome_get h)]
  simp [hhas, Heap.get_of_find? hp]

theorem outcome_global (hv : h.Holds Heap.global (.ofText x) v) : outcome (global x) h = (.ok v, h) := by
  rw [global, outcome_bind_ok (outcome_global? hv)]
  rfl

theorem outcome_callWithin {c : Code} (hc : h.code? f = some c) (depth : Nat) :
    outcome (callWithin (depth + 1) (.object f) this args) h = outcome (c.run (callWithin depth) this args) h := by
  have hcode : h.codeOf? (.object f) = some c := hc
  rw [callWithin, outcome_bind_ok (outcome_get h), hcode]

theorem outcome_method (hb : h.Offers a name b) (depth : Nat) :
    outcome (method (callWithin (depth + 1)) (.object a) name args) h =
      outcome (b.run (callWithin depth) (.object a) args) h := by
  obtain ⟨f, hf, hcode⟩ := hb
  rw [method, outcome_bind_ok (outcome_read_object a _ h), hf.get_eq, outcome_callWithin hcode]
  rfl

/-- Calls that are calls within some depth; it may depend on the heap, and is no less than a given one. -/
def Within (d : Nat) (invoke : Caller) : Prop := ∀ callee this args h, ∃ depth ≥ d,
  outcome (invoke callee this args) h = outcome (callWithin depth callee this args) h

theorem within_callWithin (depth : Nat) : Within depth (callWithin depth) := fun _ _ _ _ => ⟨depth, Nat.le_refl _, rfl⟩

theorem within_invoke : Within 16 invoke := fun _ _ _ h =>
  ⟨depthFor h, Nat.le_add_left _ _, outcome_bind_ok (outcome_get h)⟩

namespace Within

variable {d e : Nat} {invoke : Caller}

theorem mono (hde : e ≤ d) (hinvoke : Within d invoke) : Within e invoke := fun callee this args h =>
  have ⟨depth, hdepth, heq⟩ := hinvoke callee this args h
  ⟨depth, Nat.le_trans hde hdepth, heq⟩

theorem method (hinvoke : Within d invoke) (base : Value) (name : String) (args : List Value) (h : Heap) :
    ∃ depth ≥ d, outcome (method invoke base name args) h = outcome (method (callWithin depth) base name args) h := by
  rcases hread : outcome (read base (.ofText name)) h with ⟨e | f, h'⟩
  · refine ⟨d, Nat.le_refl _, ?_⟩
    rw [Run.method, Run.method, outcome_bind_error hread, outcome_bind_error hread]
  · obtain ⟨depth, hdepth, heq⟩ := hinvoke f base args h'
    refine ⟨depth, hdepth, ?_⟩
    rw [Run.method, Run.method, outcome_bind_ok hread, outcome_bind_ok hread, heq]

/-- A function that is called may call others, within a depth that is less by one. -/
theorem code {c : Code} (hinvoke : Within (d + 1) invoke) (hc : h.code? f = some c) (this : Value)
    (args : List Value) : ∃ inner, Within d inner ∧
      outcome (invoke (.object f) this args) h = outcome (c.run inner this args) h := by
  obtain ⟨depth, hdepth, heq⟩ := hinvoke (.object f) this args h
  obtain ⟨depth, rfl⟩ : ∃ n, depth = n + 1 := Nat.exists_eq_add_one.2 (Nat.lt_of_lt_of_le d.succ_pos hdepth)
  exact ⟨callWithin depth, (within_callWithin depth).mono (Nat.le_of_succ_le_succ hdepth),
    heq.trans (outcome_callWithin hc depth)⟩

theorem offers (hinvoke : Within (d + 1) invoke) (hb : h.Offers a name b) (args : List Value) :
    ∃ inner, Within d inner ∧
      outcome (Run.method invoke (.object a) name args) h = outcome (b.run inner (.object a) args) h := by
  obtain ⟨f, hf, hcode⟩ := hb
  obtain ⟨inner, hinner, heq⟩ := hinvoke.code hcode (.object a) args
  refine ⟨inner, hinner, ?_⟩
  rw [Run.method, outcome_bind_ok (outcome_read_object a _ h), hf.get_eq, heq]
  rfl

end Within

end Run

namespace Library

theorem arrayProto_made (hlibrary : Library h) : Heap.arrayProto < h.objects.size := by
  by_contra hsize
  have hproto := hlibrary.arrayProto.2.1
  rw [Heap.object_of_size_le (Nat.le_of_not_lt hsize)] at hproto
  cases hproto

end Library

/-- What a heap has to have in common with another one for the language's own objects to be in place there too. -/
structure Heap.Keeps (h h' : Heap) : Prop where
  agrees : ∀ x ∈ vocabulary, h.Agrees h' (.ofText x)
  code : ∀ f c, h.code? f = some c → h'.code? f = some c
  maps : ∀ u entries, (h.object u).kind = .map entries → ∃ entries', (h'.object u).kind = .map entries'
  protos : ∀ a, a = Heap.arrayProto ∨ a = Heap.objectProto → a < h.objects.size →
    h'.isProxy a = h.isProxy a ∧ (h'.object a).proto = (h.object a).proto ∧
      (h'.object a).elements = (h.object a).elements
  global : Heap.global < h.objects.size → (h.object Heap.global).kind = .ordinary →
    (h'.object Heap.global).kind = .ordinary

namespace Heap

theorem Keeps.holds (hkeeps : h.Keeps h') (hx : x ∈ vocabulary) (hv : h.Holds a (.ofText x) v) :
    h'.Holds a (.ofText x) v := by
  obtain ⟨p, hp, hpv⟩ := hv
  exact ⟨p, (hkeeps.agrees x hx).find? hp, hpv⟩

theorem Keeps.offers (hkeeps : h.Keeps h') (hx : x ∈ vocabulary) (hb : h.Offers a x b) : h'.Offers a x b := by
  obtain ⟨f, hf, hcode⟩ := hb
  exact ⟨f, hkeeps.holds hx hf, hkeeps.code f _ hcode⟩

theorem Grown.keeps (hgrown : h.Grown h') : h.Keeps h' where
  agrees x _ := hgrown.agrees (.ofText x)
  code _ _ := hgrown.code?
  maps u entries hkind := ⟨entries, by rw [hgrown.object u (lt_size_of_map hkind), hkind]⟩
  protos a _ ha := by rw [isProxy, hgrown.object a ha]; exact ⟨rfl, rfl, rfl⟩
  global hmade hkind := by rw [hgrown.object _ hmade, hkind]

end Heap

theorem Library.keeps (hkeeps : h.Keeps h') (hlibrary : Library h) : Library h' := by
  have harray := hkeeps.protos _ (.inl rfl) hlibrary.arrayProto_made
  have hobject := hkeeps.protos _ (.inr rfl) (Nat.lt_trans (by decide) hlibrary.arrayProto_made)
  obtain ⟨a, ha, hacode, haoffers⟩ := hlibrary.array
  exact {
    array := ⟨a, hkeeps.holds (by decide) ha, hkeeps.code a _ hacode, hkeeps.offers (by decide) haoffers⟩
    nan := hkeeps.holds (by decide) hlibrary.nan
    infinity := hkeeps.holds (by decide) hlibrary.infinity
    arrayProto := by rw [harray.1, harray.2.1, harray.2.2]; exact hlibrary.arrayProto
    objectProto := by rw [hobject.1, hobject.2.1, hobject.2.2]; exact hlibrary.objectProto }

/-- The functions of a handle table have what they work with: the language's test for own properties, and a map. -/
structure Memory.Works (m : Memory) (h : Heap) : Prop where
  hasOwn : ∃ q, m.hasOwn = .object q ∧ h.code? q = some (.builtin .hasOwnProperty) ∧ h.Offers q "call" .call
  untagged : ∃ u entries, m.untagged = .object u ∧ (h.object u).kind = .map entries ∧ h.Offers u "get" .mapGet ∧
    h.Offers u "set" .mapSet

/-- What the map of the objects that refuse a tag has for a value. -/
def Memory.known (m : Memory) (h : Heap) (v : Value) : Value :=
  match m.untagged with
  | .object u =>
    match (h.object u).kind with
    | .map entries => ((entries.find? fun e => e.1.same v).map Prod.snd).getD .undefined
    | _ => .undefined
  | _ => .undefined

/-- What the map says is something that was entered, if anything. -/
theorem Memory.known_cases {m : Memory} {u : Address} {entries : List (Value × Value)} {P : Value → Prop}
    (hu : m.untagged = .object u) (hkind : (h.object u).kind = .map entries) (hentries : ∀ e ∈ entries, P e.2) (v : Value) :
    m.known h v = .undefined ∨ P (m.known h v) := by
  rw [Memory.known, hu]
  simp only [hkind]
  cases hfind : entries.find? fun e => e.1.same v with
  | none => exact .inl rfl
  | some e => exact .inr (hentries e (List.mem_of_find?_eq_some hfind))

/-- An object has a slot, and its registration is found again: by its own tag, or in the map when it has none. -/
structure Registered (h : Heap) (m : Memory) (n : Nat) (a : Address) : Prop where
  made : a < h.objects.size
  bound : n < 2 ^ 32
  slot : ∃ t, m.table = .object t ∧ h.Holds t (.ofNat n) (.object a)
  plain : h.isArray a = false
  known : (∃ p, h.own? a (.ofText m.tag) = some p ∧ p.value = .nat n) ∨
    h.own? a (.ofText m.tag) = none ∧ m.known h (.object a) = .nat n

section Grown

variable {m : Memory} {n : Nat}

theorem Memory.Works.keeps (hkeeps : h.Keeps h') (hworks : m.Works h) : m.Works h' := by
  obtain ⟨q, hq, hcode, hcall⟩ := hworks.hasOwn
  obtain ⟨u, entries, hu, hkind, hget, hset⟩ := hworks.untagged
  obtain ⟨entries', hkind'⟩ := hkeeps.maps u entries hkind
  exact ⟨⟨q, hq, hkeeps.code q _ hcode, hkeeps.offers (by decide) hcall⟩,
    ⟨u, entries', hu, hkind', hkeeps.offers (by decide) hget, hkeeps.offers (by decide) hset⟩⟩

private theorem Memory.known_grown (hgrown : h.Grown h') (hknown : m.known h v ≠ .undefined) :
    m.known h' v = m.known h v := by
  unfold Memory.known at hknown ⊢
  cases hu : m.untagged with
  | object u =>
    simp only [hu] at hknown ⊢
    by_cases hsize : u < h.objects.size
    · rw [hgrown.object u hsize]
    · rw [Heap.object_of_size_le (Nat.le_of_not_lt hsize)] at hknown
      exact absurd rfl hknown
  | _ => rfl

theorem Registered.grown (hgrown : h.Grown h') (hregistered : Registered h m n a) : Registered h' m n a := by
  obtain ⟨t, ht, hslot⟩ := hregistered.slot
  have hmade := hregistered.made
  refine ⟨hmade.trans_le hgrown.size, hregistered.bound, ⟨t, ht, hgrown.holds hslot⟩, ?_, ?_⟩
  · rw [Heap.isArray, hgrown.stored hmade]
    exact hregistered.plain
  · rw [hgrown.own? hmade]
    refine hregistered.known.imp_right fun ⟨hown, hknown⟩ => ⟨hown, ?_⟩
    rw [Memory.known_grown hgrown (by rw [hknown]; simp [Value.nat]), hknown]

end Grown

/-- A handle table and its converter are in place under the names of a configuration. -/
structure Installed (c : Config) (m : Memory) (h : Heap) : Prop where
  library : Library h
  works : m.Works h
  table : h.Holds Heap.global (.ofText c.tableName) m.table
  converter : ∃ f, h.Holds Heap.global (.ofText c.converterName) (.object f) ∧ h.code? f = some (.tool .convert m)
  tag : m.tag = c.tagProperty
  scheme : m.scheme = String.ofList Handle.scheme

theorem Installed.grown {c : Config} {m : Memory} (hgrown : h.Grown h') (hinstalled : Installed c m h) :
    Installed c m h' := by
  obtain ⟨f, hf, hcode⟩ := hinstalled.converter
  exact {
    library := hinstalled.library.keeps hgrown.keeps
    works := hinstalled.works.keeps hgrown.keeps
    table := hgrown.holds hinstalled.table
    converter := ⟨f, hgrown.holds hf, hgrown.code? hcode⟩
    tag := hinstalled.tag
    scheme := hinstalled.scheme }

/-- Whether a value is an array. -/
def Heap.isArrayValue (h : Heap) : Value → Bool
  | .object a => h.isArray a
  | _ => false

namespace Converter

open Run (Within)

variable {m : Memory} {invoke : Caller}

theorem outcome_isArray (hinvoke : Within 1 invoke) (hlibrary : Library h) (v : Value) :
    outcome (isArray invoke v) h = (.ok (h.isArrayValue v), h) := by
  obtain ⟨f, hf, -, hoffers⟩ := hlibrary.array
  obtain ⟨inner, -, hcall⟩ := hinvoke.offers hoffers [v]
  have hanswer : outcome (Builtin.isArray.run inner (.object f) [v]) h = (.ok (.bool (h.isArrayValue v)), h) := by
    cases v <;> rfl
  rw [isArray, outcome_bind_ok (Run.outcome_global hf), outcome_bind_ok (hcall.trans hanswer)]
  rfl

theorem outcome_hasTag (hinvoke : Within 2 invoke) (hworks : m.Works h) (a : Address) :
    outcome (hasTag invoke m (.object a)) h = (.ok (h.own? a (.ofText m.tag)).isSome, h) := by
  obtain ⟨q, hq, hcode, hcall⟩ := hworks.hasOwn
  obtain ⟨inner, hinner, hpassed⟩ := hinvoke.offers hcall [.object a, .text m.tag]
  obtain ⟨innermost, -, hrun⟩ := hinner.code hcode (.object a) [.text m.tag]
  have hanswer : outcome (Run.method invoke (.object q) "call" [.object a, .text m.tag]) h =
      (.ok (.bool (h.own? a (.ofText m.tag)).isSome), h) := hpassed.trans hrun
  rw [hasTag, hq, outcome_bind_ok hanswer]
  rfl

theorem outcome_readTag (m : Memory) (a : Address) (h : Heap) :
    outcome (readTag m (.object a)) h = (.ok (h.get a (.ofText m.tag)), h) := rfl

/-- The slot that a number names. -/
theorem outcome_holds {t : Address} {n : Nat} {x : Number} (htable : m.table = .object t) (hn : n < 2 ^ 32)
    (hx : x.toDouble = Double.ofNat n) (invoke : Caller) (v : Value) (h : Heap) :
    outcome (holds invoke m (.number x) v) h = (.ok ((h.get t (.ofNat n)).same v), h) := by
  rw [holds, Run.key_number hn hx, htable]
  rfl

theorem outcome_entries {u : Address} {entries : List (Value × Value)}
    (hkind : (h.object u).kind = .map entries) : outcome (Run.entries (.object u)) h = (.ok (u, entries), h) := by
  rw [Run.entries, outcome_bind_ok (outcome_get h), hkind]
  rfl

theorem outcome_mapGet (hinvoke : Within 1 invoke) (hworks : m.Works h) (v : Value) :
    outcome (Run.method invoke m.untagged "get" [v]) h = (.ok (m.known h v), h) := by
  obtain ⟨u, entries, hu, hkind, hget, -⟩ := hworks.untagged
  obtain ⟨inner, -, hcall⟩ := hinvoke.offers hget [v]
  have hknown : m.known h v = ((entries.find? fun e => e.1.same v).map Prod.snd).getD .undefined := by
    simp [Memory.known, hu, hkind]
  rw [hu, hcall, hknown]
  exact outcome_bind_ok (outcome_entries hkind)

/-- The map takes a handle. -/
theorem outcome_mapSet (hinvoke : Within 1 invoke) (hworks : m.Works h) (v w : Value) : ∃ u entries, m.untagged = .object u ∧
    (h.object u).kind = .map entries ∧
    outcome (Run.method invoke m.untagged "set" [v, w]) h = (.ok (.object u),
      h.setObject u { h.object u with kind := .map ((v, w) :: entries.filter fun e => !e.1.same v) }) := by
  obtain ⟨u, entries, hu, hkind, -, hset⟩ := hworks.untagged
  obtain ⟨inner, -, hcall⟩ := hinvoke.offers hset [v, w]
  refine ⟨u, entries, hu, hkind, ?_⟩
  rw [hu, hcall]
  exact outcome_bind_ok (outcome_entries hkind)

private theorem nat_ne_undefined (n : Nat) : Value.nat n ≠ .undefined := by simp [Value.nat]

private theorem same_object (a : Address) : (Value.object a).same (.object a) = true := by simp [Value.same]

private theorem outcome_holds_registered {n : Nat} (hregistered : Registered h m n a) (invoke : Caller) :
    outcome (holds invoke m (.nat n) (.object a)) h = (.ok true, h) := by
  obtain ⟨t, ht, hslot⟩ := hregistered.slot
  rw [Value.nat, outcome_holds ht hregistered.bound (Number.toDouble_ofNat n), hslot.get_eq, same_object]

/-- The handle of a registered object is found. -/
theorem outcome_register (hinvoke : Within 2 invoke) (hworks : m.Works h) {n : Nat}
    (hregistered : Registered h m n a) :
    outcome (register invoke m (.object a)) h = (.ok (.nat n), h) := by
  have hholds := outcome_holds_registered hregistered invoke
  have htag := outcome_hasTag hinvoke hworks a
  rcases hregistered.known with ⟨p, hown, hp⟩ | ⟨hown, hknown⟩
  · have hread : outcome (readTag m (.object a)) h = (.ok (.nat n), h) := by
      rw [outcome_readTag, Heap.get_of_find? (Heap.find?_of_own? hown), hp]
    have htagged : outcome (taggedHandle? invoke m (.object a)) h = (.ok (some (.nat n)), h) := by
      rw [taggedHandle?, outcome_bind_ok htag, hown, Option.isSome_some, if_pos rfl, outcome_bind_ok hread,
        outcome_bind_ok hholds]
      rfl
    rw [register, outcome_bind_ok htagged]
    rfl
  · have htagged : outcome (taggedHandle? invoke m (.object a)) h = (.ok none, h) := by
      rw [taggedHandle?, outcome_bind_ok htag, hown]
      rfl
    have hget := outcome_mapGet (hinvoke.mono (by decide)) hworks (.object a)
    rw [hknown] at hget
    have hfound : outcome (knownHandle? invoke m (.object a)) h = (.ok (some (.nat n)), h) := by
      rw [knownHandle?, outcome_bind_ok hget, if_neg (nat_ne_undefined n), outcome_bind_ok hholds]
      rfl
    rw [register, outcome_bind_ok htagged, outcome_bind_ok hfound]
    rfl

theorem outcome_sum (invoke : Caller) (s : String) (x : Number) (h : Heap) :
    outcome (Run.sum invoke (.text s) (.number x)) h = (.ok (.string (.text (s ++ String.ofList x.text))), h) := rfl

/-- The token of a registered object is the word before handles and the digits of its handle. -/
theorem outcome_token (hinvoke : Within 2 invoke) (hworks : m.Works h) {n : Nat} (hregistered : Registered h m n a) :
    outcome (token invoke m (.object a)) h =
      (.ok (.string (.text (m.scheme ++ String.ofList (Text.decimal n)))), h) := by
  have htext : (Number.ofNat n).text = Text.decimal n :=
    Number.text_of_toDouble hregistered.bound (Number.toDouble_ofNat n)
  rw [token, outcome_bind_ok (outcome_register hinvoke hworks hregistered), Value.nat, outcome_sum, htext]

end Converter
end ScriptBridge.Script
