import ScriptBridge.Proofs.Grammar

/-! Rendered calls read back. The text of a call belongs to one tree of the grammar, and the tree stands for
the slot, the member and the arguments that the text was made of. -/
namespace ScriptBridge

open Double (Decimal)
open Script (Content IsWord)

/-- What an element stands for. -/
inductive Meaning where
  | null
  | bool (b : Bool)
  | number (x : Double)
  | text (c : Content)
  | list (items : List Meaning)
  | slot (index : Nat)

mutual
/-- What a value is rendered as: what the owner cannot name is null. -/
def Native.meaning (owner : Option Session) : Native → Meaning
  | .null => .null
  | .bool b => .bool b
  | .int n => .number (Double.ofInt n.toInt)
  | .long n => .number (Double.ofInt n.toInt)
  | .double x => .number x.canonical
  | .text s => .text (.text s)
  | .array items => .list (meanings owner items)
  | .ref r => if Expression.nameable owner r then .slot r.handle.index else .null
  | .foreign _ => .null

def Native.meanings (owner : Option Session) : List Native → List Meaning
  | [] => []
  | v :: rest => v.meaning owner :: meanings owner rest
end

/-- A member of a slot, read or called with arguments. -/
structure Access where
  slot : Nat
  member : List Char
  arguments : Option (List Meaning)

/-- The access that a call asks for. -/
def Access.ofCall (owner : Option Session) (h : Handle) (member : String) (args : List Native) : Access :=
  match propertyName? member, args with
  | some property, [] => ⟨h.index, property.toList, none⟩
  | _, _ => ⟨h.index, member.toList, some (Native.meanings owner args)⟩

namespace Grammar

mutual
def Element.meaning : Element → Meaning
  | .null => .null
  | .truth b => .bool b
  | .nan => .number Double.nan
  | .infinity negative => .number (if negative then Double.negInfinity else Double.infinity)
  | .number negative n => .number (n.toDouble negative)
  | .string pieces => .text (Content.ofUnits (StringLiteral.units pieces))
  | .list items => .list (meanings items)
  | .slot index => .slot (Text.numeral index)

def Element.meanings : List Element → List Meaning
  | [] => []
  | e :: rest => e.meaning :: meanings rest
end

/-- The element as which a number is written. -/
def Element.ofDouble (x : Double) : Element :=
  if x.isNaN then .nan else if x.isInfinite then .infinity x.negative else .number x.negative (x.written .expression)

mutual
/-- The element as which a value is written. -/
def Element.ofNative (owner : Option Session) : Native → Element
  | .null => .null
  | .bool b => .truth b
  | .int n => .ofDouble (Double.ofInt n.toInt)
  | .long n => .ofDouble (Double.ofInt n.toInt)
  | .double x => .ofDouble x
  | .text s => .string (s.toList.map StringLiteral.ofChar)
  | .array items => .list (ofNatives owner items)
  | .ref r => if Expression.nameable owner r then .slot r.handle.numeralText else .null
  | .foreign _ => .null

def Element.ofNatives (owner : Option Session) : List Native → List Element
  | [] => []
  | v :: rest => ofNative owner v :: ofNatives owner rest
end

/-- The tree of a call. -/
def Call.ofCall (owner : Option Session) (h : Handle) (member : String) (args : List Native) : Call :=
  match propertyName? member, args with
  | some property, [] => ⟨h.numeralText, property.toList, none⟩
  | _, _ => ⟨h.numeralText, member.toList, some (Element.ofNatives owner args)⟩

namespace Element

/-- A number is not a number, infinite or finite. -/
private theorem ofDouble_cases (x : Double) :
    x.isNaN = true ∧ ofDouble x = .nan ∨
      x.isNaN = false ∧ x.isInfinite = true ∧ ofDouble x = .infinity x.negative ∨
        x.isNaN = false ∧ x.isFinite = true ∧ ofDouble x = .number x.negative (x.written .expression) := by
  unfold ofDouble
  cases hnan : x.isNaN with
  | true => exact .inl ⟨rfl, rfl⟩
  | false =>
    cases hinf : x.isInfinite with
    | true => exact .inr (.inl ⟨rfl, rfl, rfl⟩)
    | false => exact .inr (.inr ⟨rfl, Double.isFinite_of_not hnan hinf, rfl⟩)

theorem ofDouble_text (table : List Char) (x : Double) : (ofDouble x).text table = x.text .expression := by
  rcases ofDouble_cases x with ⟨hnan, h⟩ | ⟨hnan, hinf, h⟩ | ⟨-, hfin, h⟩ <;> rw [h]
  · rw [Double.text, if_pos hnan]
    rfl
  · rw [Double.text, if_neg (by simp [hnan]), if_pos hinf]
    cases x.negative <;> rfl
  · rw [Double.text_eq_written rfl hfin]
    rfl

theorem ofDouble_wellFormed (x : Double) : (ofDouble x).WellFormed := by
  rcases ofDouble_cases x with ⟨-, h⟩ | ⟨-, -, h⟩ | ⟨-, -, h⟩ <;> rw [h]
  · trivial
  · trivial
  · exact Double.written_wellFormed _ _

theorem ofDouble_meaning (x : Double) : (ofDouble x).meaning = .number x.canonical := by
  unfold Double.canonical
  rcases ofDouble_cases x with ⟨hnan, h⟩ | ⟨hnan, hinf, h⟩ | ⟨hnan, hfin, h⟩ <;> rw [h]
  · rw [if_pos hnan]
    rfl
  · have hmag : x.magnitude = Double.infinite := of_decide_eq_true hinf
    have hself := Double.ofParts_self x
    rw [hmag] at hself
    rw [if_neg (by simp [hnan]), meaning]
    cases hneg : x.negative <;> rw [hneg] at hself <;> rw [← hself] <;> rfl
  · rw [if_neg (by simp [hnan]), meaning, Double.written_toDouble _ hfin]

mutual
theorem ofNative_text (table : String) (owner : Option Session) (v : Native) :
    (ofNative owner v).text table.toList = Expression.argument table owner v := by
  match v with
  | .null => rfl
  | .bool _ => rfl
  | .int _ => exact ofDouble_text _ _
  | .long _ => exact ofDouble_text _ _
  | .double _ => exact ofDouble_text _ _
  | .text s => exact congrArg (fun t => '\'' :: t ++ ['\'']) (StringLiteral.text_map_ofChar s.toList)
  | .array items => rw [ofNative, text, Expression.argument, ofNatives_texts table owner items]
  | .ref r =>
    rw [ofNative, Expression.argument]
    split <;> rfl
  | .foreign _ => rfl

theorem ofNatives_texts (table : String) (owner : Option Session) (vs : List Native) :
    texts table.toList (ofNatives owner vs) = Expression.arguments table owner vs := by
  match vs with
  | [] => rfl
  | v :: rest => rw [ofNatives, texts, Expression.arguments, ofNative_text table owner v,
      ofNatives_texts table owner rest]
end

theorem isIndex_numeralText (h : Handle) : IsIndex h.numeralText :=
  ⟨Text.decimal_ne_nil _, fun _ => Text.isDigit_of_mem_decimal⟩

mutual
theorem ofNative_wellFormed (owner : Option Session) (v : Native) : (ofNative owner v).WellFormed := by
  match v with
  | .null => trivial
  | .bool _ => trivial
  | .int _ => exact ofDouble_wellFormed _
  | .long _ => exact ofDouble_wellFormed _
  | .double _ => exact ofDouble_wellFormed _
  | .text s => exact StringLiteral.wellFormed_map_ofChar _
  | .array items => exact ofNatives_wellFormed owner items
  | .ref r =>
    rw [ofNative]
    split
    · exact isIndex_numeralText _
    · trivial
  | .foreign _ => trivial

theorem ofNatives_wellFormed (owner : Option Session) (vs : List Native) : AllWellFormed (ofNatives owner vs) := by
  match vs with
  | [] => trivial
  | v :: rest => exact ⟨ofNative_wellFormed owner v, ofNatives_wellFormed owner rest⟩
end

private theorem ofInt_canonical (n : Int) : (Double.ofInt n).canonical = Double.ofInt n := by
  have hround : BinaryFormat.double.round n.natAbs 1 ≤ Double.infinite := by
    unfold BinaryFormat.round
    split
    · exact Nat.zero_le _
    · exact Nat.min_le_left _ _
  have hinf : Double.infinite < 2 ^ 63 := by decide
  have hmag : (Double.ofInt n).magnitude = BinaryFormat.double.round n.natAbs 1 := by
    rw [Double.ofInt, Double.ofRatio, Double.ofParts, Double.magnitude, UInt64.toNat_ofNat']
    split <;> omega
  have hnan : (Double.ofInt n).isNaN = false := decide_eq_false (by omega)
  rw [Double.canonical, if_neg (by simp [hnan])]

mutual
theorem ofNative_meaning (owner : Option Session) (v : Native) :
    (ofNative owner v).meaning = v.meaning owner := by
  match v with
  | .null => rfl
  | .bool _ => rfl
  | .int n => exact (ofDouble_meaning _).trans (congrArg Meaning.number (ofInt_canonical _))
  | .long n => exact (ofDouble_meaning _).trans (congrArg Meaning.number (ofInt_canonical _))
  | .double x => exact ofDouble_meaning x
  | .text s =>
    rw [ofNative, meaning, StringLiteral.units_map_ofChar, Content.ofUnits, Text.ofUnits?_units]
    exact congrArg (Meaning.text ∘ Content.text) String.ofList_toList
  | .array items => exact congrArg Meaning.list (ofNatives_meanings owner items)
  | .ref r =>
    rw [ofNative, Native.meaning]
    split
    · exact congrArg Meaning.slot (Text.numeral_decimal _)
    · rfl
  | .foreign _ => rfl

theorem ofNatives_meanings (owner : Option Session) (vs : List Native) :
    meanings (ofNatives owner vs) = Native.meanings owner vs := by
  match vs with
  | [] => rfl
  | v :: rest => rw [ofNatives, meanings, Native.meanings, ofNative_meaning owner v,
      ofNatives_meanings owner rest]
end

end Element

namespace Call

variable {table : String} {owner : Option Session} {h : Handle} {member : String} {args : List Native}

/-- A call is read as a property or with its arguments. -/
private theorem ofCall_cases (owner : Option Session) (h : Handle) (member : String) (args : List Native) :
    (∃ property, propertyName? member = some property ∧ args = [] ∧
      ofCall owner h member args = ⟨h.numeralText, property.toList, none⟩ ∧
      Access.ofCall owner h member args = ⟨h.index, property.toList, none⟩ ∧
      ∀ table, Expression.call table owner h member args =
        Expression.reference table h ++ '.' :: property.toList) ∨
    (ofCall owner h member args = ⟨h.numeralText, member.toList, some (Element.ofNatives owner args)⟩ ∧
      Access.ofCall owner h member args = ⟨h.index, member.toList, some (Native.meanings owner args)⟩ ∧
      ∀ table, Expression.call table owner h member args = Expression.reference table h ++ '.' ::
        (member.toList ++ '(' :: Expression.separated (Expression.arguments table owner args) ++ [')'])) := by
  unfold ofCall Access.ofCall Expression.call
  rcases propertyName? member with _ | property <;> rcases args with _ | ⟨v, rest⟩
  · exact .inr ⟨rfl, rfl, fun _ => rfl⟩
  · exact .inr ⟨rfl, rfl, fun _ => rfl⟩
  · exact .inl ⟨property, rfl, rfl, rfl, rfl, fun _ => rfl⟩
  · exact .inr ⟨rfl, rfl, fun _ => rfl⟩

theorem ofCall_text (table : String) : (ofCall owner h member args).text table.toList =
    Expression.call table owner h member args := by
  rcases ofCall_cases owner h member args with ⟨property, -, -, hcall, -, htext⟩ | ⟨hcall, -, htext⟩ <;>
    rw [hcall, htext, Expression.reference]
  · simp [text, argumentsText]
  · simp [text, argumentsText, Element.ofNatives_texts]

theorem ofCall_wellFormed (hmember : IsWord member.toList) : (ofCall owner h member args).WellFormed := by
  rcases ofCall_cases owner h member args with ⟨property, hproperty, -, hcall, -⟩ | ⟨hcall, -⟩ <;> rw [hcall]
  · exact ⟨Element.isIndex_numeralText h, Script.isWord_propertyName? hmember hproperty, by simp⟩
  · refine ⟨Element.isIndex_numeralText h, hmember, fun es hes => ?_⟩
    obtain rfl := Option.some.inj hes
    exact Element.ofNatives_wellFormed owner args

end Call

end Grammar

open Grammar (Call)

end ScriptBridge
