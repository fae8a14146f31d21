import ScriptBridge.Proofs.Library
import ScriptBridge.Script.Realm

/-! Names of the global object. An assignment to one of them puts the value there or is refused, and what other names
stand for stays the same. -/
namespace ScriptBridge.Script

variable {h : Heap} {a b f : Address} {k l : Key} {v : Value} {x y : String} {p q : Property} {o : Object}

theorem Key.ofText_injective : Function.Injective Key.ofText := by
  intro s t hst
  have hindex {s : String} (hs : (s.toList.all Char.isDigit && Text.decimal (Text.numeral s.toList) == s.toList &&
      decide (Text.numeral s.toList < indexBound)) = true) :
      Text.decimal (Text.numeral s.toList) = s.toList := by
    simp only [Bool.and_eq_true, beq_iff_eq] at hs
    exact hs.1.2
  unfold ofText ofChars at hst
  dsimp only at hst
  split at hst <;> split at hst
  · rename_i hs ht
    have hnumeral : Text.numeral s.toList = Text.numeral t.toList := by simpa using hst
    rw [String.ext_iff, ← hindex hs, ← hindex ht, hnumeral]
  · cases hst
  · cases hst
  · simpa [Content.ofChars] using hst

theorem Key.ofText_ne (hxy : x ≠ y) : Key.ofText x ≠ .ofText y := fun h => hxy (Key.ofText_injective h)

namespace Object

theorem define_present (hq : o.property? k = some q) (d : Descriptor) :
    o.define k d = if d.fits q then (.accepted, o.put k (d.change q)) else (.notConfigurable, o) := by
  unfold define
  rw [hq]

theorem define_absent (hkind : o.kind = .ordinary) (hnone : o.property? k = none) (d : Descriptor) :
    o.define k d = if o.extensible then (.accepted, o.put k d.fresh) else (.notExtensible, o) := by
  unfold define
  rw [hnone, hkind]
  cases o.extensible <;> rfl

end Object

namespace Heap

theorem storage_ordinary (hkind : (h.object a).kind = .ordinary) : h.storage a = a :=
  storage_of_not_isProxy (by rw [isProxy, hkind])

theorem own?_ordinary (hkind : (h.object a).kind = .ordinary) (k : Key) : h.own? a k = (h.object a).property? k := by
  rw [own?, stored, storage_ordinary hkind, hkind]

theorem define_ordinary (hkind : (h.object a).kind = .ordinary) (k : Key) (d : Descriptor) :
    h.define a k d = (((h.object a).define k d).1, h.setObject a ((h.object a).define k d).2) := by
  unfold define
  rw [hkind]
  dsimp only
  unfold defineStored
  dsimp only
  rw [hkind]

end Heap

/-! A property that is put into the global object. -/

namespace Realm

@[simp] theorem size_addProperty (h : Heap) (b : Address) (x : String) (p : Property) :
    (addProperty h b x p).objects.size = h.objects.size := Heap.size_setObject _ _ _

theorem object_addProperty_of_ne (h : Heap) (x : String) (p : Property) (hab : a ≠ b) :
    (addProperty h b x p).object a = h.object a := Heap.object_setObject_of_ne _ hab

theorem object_addProperty_self (hb : b < h.objects.size) (x : String) (p : Property) :
    (addProperty h b x p).object b = (h.object b).put (.ofText x) p := Heap.object_setObject_self _ hb

/-- Only the properties of an object are changed. -/
theorem kind_addProperty (h : Heap) (b : Address) (x : String) (p : Property) (a : Address) :
    ((addProperty h b x p).object a).kind = (h.object a).kind ∧
      ((addProperty h b x p).object a).proto = (h.object a).proto ∧
      ((addProperty h b x p).object a).extensible = (h.object a).extensible := by
  by_cases hab : a = b
  · subst hab
    by_cases ha : a < h.objects.size
    · rw [object_addProperty_self ha]
      cases Key.ofText x <;> exact ⟨rfl, rfl, rfl⟩
    · rw [addProperty, Heap.setObject_of_size_le _ (Nat.le_of_not_lt ha)]
      exact ⟨rfl, rfl, rfl⟩
  · rw [object_addProperty_of_ne h x p hab]
    exact ⟨rfl, rfl, rfl⟩

theorem storage_addProperty (h : Heap) (b : Address) (x : String) (p : Property) (a : Address) :
    (addProperty h b x p).storage a = h.storage a :=
  Heap.storage_congr fun c _ => by rw [(kind_addProperty h b x p c).1]

theorem stored_addProperty (h : Heap) (b : Address) (x : String) (p : Property) (a : Address) :
    (addProperty h b x p).stored a = (addProperty h b x p).object (h.storage a) := by
  rw [Heap.stored, storage_addProperty]

theorem isProxy_addProperty (h : Heap) (b : Address) (x : String) (p : Property) (a : Address) :
    (addProperty h b x p).isProxy a = h.isProxy a := by
  rw [Heap.isProxy_eq, Heap.isProxy_eq, (kind_addProperty h b x p a).1]

theorem code?_addProperty (h : Heap) (b : Address) (x : String) (p : Property) (f : Address) :
    (addProperty h b x p).code? f = h.code? f := by
  rw [Heap.code?, Heap.code?, stored_addProperty, (kind_addProperty h b x p _).1, Heap.stored]

theorem property?_addProperty_of_ne (h : Heap) (b : Address) (p : Property) (hl : l ≠ .ofText x) (a : Address) :
    ((addProperty h b x p).object a).property? l = (h.object a).property? l := by
  by_cases hab : a = b
  · subst hab
    by_cases ha : a < h.objects.size
    · rw [object_addProperty_self ha, Object.property?_put, if_neg hl]
    · rw [addProperty, Heap.setObject_of_size_le _ (Nat.le_of_not_lt ha)]
  · rw [object_addProperty_of_ne h x p hab]

theorem own?_addProperty_of_ne (h : Heap) (b : Address) (p : Property) (hl : l ≠ .ofText x) (a : Address) :
    (addProperty h b x p).own? a l = h.own? a l := by
  have hproperty : ((addProperty h b x p).stored a).property? l = (h.stored a).property? l := by
    rw [stored_addProperty, Heap.stored, property?_addProperty_of_ne h b p hl]
  have hkind : ((addProperty h b x p).stored a).kind = (h.stored a).kind := by
    rw [stored_addProperty, (kind_addProperty h b x p _).1, Heap.stored]
  rw [Heap.own?, Heap.own?, hkind, hproperty]

theorem own?_addProperty_of_storage_ne (x : String) (p : Property) (hab : h.storage a ≠ b) (l : Key) :
    (addProperty h b x p).own? a l = h.own? a l := by
  have hstored : (addProperty h b x p).stored a = h.stored a := by
    rw [stored_addProperty, object_addProperty_of_ne h x p hab, Heap.stored]
  rw [Heap.own?, Heap.own?, hstored]

theorem own?_addProperty_self (hb : b < h.objects.size) (hkind : (h.object b).kind = .ordinary) (x : String)
    (p : Property) : (addProperty h b x p).own? b (.ofText x) = some p := by
  rw [Heap.own?_ordinary (by rw [(kind_addProperty h b x p b).1, hkind]), object_addProperty_self hb,
    Object.property?_put, if_pos rfl]

theorem agrees_addProperty (h : Heap) (b : Address) (p : Property) (hl : l ≠ .ofText x) :
    h.Agrees (addProperty h b x p) l where
  size := (size_addProperty h b x p).ge
  proto a _ := by rw [stored_addProperty, (kind_addProperty h b x p _).2.1, Heap.stored]
  own a _ := own?_addProperty_of_ne h b p hl a

/-- The language's own objects stay in place when the global object gets a property under another name. -/
theorem keeps_addProperty (h : Heap) (p : Property) (hx : x ∉ vocabulary) :
    h.Keeps (addProperty h Heap.global x p) where
  agrees y hy := agrees_addProperty h _ p (Key.ofText_ne (ne_of_mem_of_not_mem hy hx))
  code f c hc := by rw [code?_addProperty, hc]
  maps u entries hkind := ⟨entries, by rw [(kind_addProperty h _ x p u).1, hkind]⟩
  protos a ha _ := by
    have hne : a ≠ Heap.global := by rcases ha with rfl | rfl <;> decide
    rw [isProxy_addProperty, object_addProperty_of_ne h x p hne]
    exact ⟨rfl, rfl, rfl⟩
  global _ hkind := by rw [(kind_addProperty h _ x p _).1, hkind]

end Realm

namespace Run

open Realm (addProperty)

/-- The property that an assignment leaves: a changed one where there was one, or a plain one. -/
def Assigned (h : Heap) (x : String) (v : Value) (p : Property) : Prop :=
  (∃ q, h.own? Heap.global (.ofText x) = some q ∧ p = { q with value := v }) ∨
    h.own? Heap.global (.ofText x) = none ∧ p = .plain v

theorem Assigned.value_eq (hp : Assigned h x v p) : p.value = v := by
  rcases hp with ⟨q, -, rfl⟩ | ⟨-, rfl⟩ <;> rfl

/-- The global object has a property of its own under a name, which takes other values. -/
def Takes (h : Heap) (x : String) : Prop := ∃ p, h.own? Heap.global (.ofText x) = some p ∧ p.writable = true

private theorem outcome_define_global (hkind : (h.object Heap.global).kind = .ordinary) (x : String) (d : Descriptor) :
    outcome (define Heap.global (.ofText x) d) h = (.ok ((h.object Heap.global).define (.ofText x) d).1,
      h.setObject Heap.global ((h.object Heap.global).define (.ofText x) d).2) := by
  rw [outcome_define, Heap.define_ordinary hkind]

/-- A property that the global object does not have is added while it takes others. -/
private theorem outcome_assignOwn_absent (hkind : (h.object Heap.global).kind = .ordinary)
    (hown : h.own? Heap.global (.ofText x) = none) (v : Value) :
    (h.object Heap.global).extensible = true ∧
        outcome (assignOwn Heap.global (.ofText x) v) h = (.ok (), addProperty h Heap.global x (.plain v)) ∨
      (h.object Heap.global).extensible = false ∧
        ∃ e, outcome (assignOwn Heap.global (.ofText x) v) h = (.error e, h) := by
  have hnone : (h.object Heap.global).property? (.ofText x) = none := (Heap.own?_ordinary hkind _).symm.trans hown
  rw [assignOwn, outcome_bind_ok (outcome_get h), if_neg (by simp [hown]),
    outcome_bind_ok (outcome_define_global hkind x _), Object.define_absent hkind hnone]
  cases (h.object Heap.global).extensible with
  | true => exact .inl ⟨rfl, rfl⟩
  | false =>
    rw [if_neg Bool.false_ne_true, Heap.setObject_object]
    exact .inr ⟨rfl, _, rfl⟩

private theorem outcome_assignOwn_global (hkind : (h.object Heap.global).kind = .ordinary) (x : String) (v : Value) :
    (∃ p, Assigned h x v p ∧
      outcome (assignOwn Heap.global (.ofText x) v) h = (.ok (), addProperty h Heap.global x p)) ∨
      ¬Takes h x ∧ ∃ e, outcome (assignOwn Heap.global (.ofText x) v) h = (.error e, h) := by
  have hproxy : h.isProxy Heap.global = false := by rw [Heap.isProxy, hkind]
  cases hown : h.own? Heap.global (.ofText x) with
  | some q =>
    have hq := (Heap.own?_ordinary hkind (.ofText x)).symm.trans hown
    rw [assignOwn, outcome_bind_ok (outcome_get h), if_pos (by simp [hown]),
      outcome_bind_ok (outcome_define_global hkind x _), Object.define_present hq]
    by_cases hfits : (Descriptor.ofValue v).fits q = true
    · rw [if_pos hfits]
      exact .inl ⟨{ q with value := v }, .inl ⟨q, hown, rfl⟩, rfl⟩
    · rw [if_neg hfits, Heap.setObject_object]
      refine .inr ⟨?_, ?_⟩
      · rintro ⟨q', hq', hwritable⟩
        obtain rfl : q = q' := Option.some.inj (hown.symm.trans hq')
        exact hfits (by simp [Descriptor.fits, Descriptor.ofValue, hwritable])
      dsimp only [Defined.notConfigurable]
      rw [hproxy]
      exact ⟨_, rfl⟩
  | none =>
    rcases outcome_assignOwn_absent hkind hown v with ⟨-, hrun⟩ | ⟨-, herror⟩
    · exact .inl ⟨.plain v, .inr ⟨hown, rfl⟩, hrun⟩
    · refine .inr ⟨?_, herror⟩
      rintro ⟨q, hq, -⟩
      simp [hown] at hq

/-- An assignment to a name that stands for nothing makes it a property of the global object, while that takes any. -/
theorem outcome_assign_absent (hkind : (h.object Heap.global).kind = .ordinary) (hproto : Key.ofText x ≠ .proto)
    (hnone : h.find? Heap.global (.ofText x) = none) (v : Value) :
    (h.object Heap.global).extensible = true ∧
        outcome (assign (.object Heap.global) (.ofText x) v) h = (.ok (), addProperty h Heap.global x (.plain v)) ∨
      (h.object Heap.global).extensible = false ∧
        ∃ e, outcome (assign (.object Heap.global) (.ofText x) v) h = (.error e, h) := by
  have hown : h.own? Heap.global (.ofText x) = none := by
    cases hown : h.own? Heap.global (.ofText x) with
    | none => rfl
    | some p =>
      rw [Heap.find?_of_own? hown] at hnone
      cases hnone
  rw [assign, outcome_bind_ok (outcome_get h), hnone]
  dsimp only
  rw [if_neg (by simp [hproto])]
  exact outcome_assignOwn_absent hkind hown v

/-- An assignment to a global name puts the value there, or is refused. It is not refused where the name is the global
object's own and takes other values. -/
theorem outcome_assign_global (hkind : (h.object Heap.global).kind = .ordinary) (hproto : Key.ofText x ≠ .proto)
    (v : Value) :
    (∃ p, Assigned h x v p ∧
      outcome (assign (.object Heap.global) (.ofText x) v) h = (.ok (), addProperty h Heap.global x p)) ∨
      ¬Takes h x ∧ ∃ e, outcome (assign (.object Heap.global) (.ofText x) v) h = (.error e, h) := by
  have hown := outcome_assignOwn_global hkind x v
  rw [assign, outcome_bind_ok (outcome_get h)]
  cases hfind : h.find? Heap.global (.ofText x) with
  | some p =>
    cases hw : p.writable with
    | true => simpa only [hw, if_true] using hown
    | false =>
      refine .inr ⟨?_, _, by simp only [hw]; rfl⟩
      rintro ⟨q, hq, hwritable⟩
      obtain rfl : p = q := Option.some.inj (hfind.symm.trans (Heap.find?_of_own? hq))
      simp [hw] at hwritable
  | none =>
    dsimp only
    rwa [if_neg (by simp [hproto])]

end Run
end ScriptBridge.Script
