import ScriptBridge.Proofs.Fronts
import ScriptBridge.Proofs.Scanning
import ScriptBridge.Script.Program
import ScriptBridge.Session.Operations

/-! Reading of rendered values. The tokens of a value are read as the expression that makes it, whatever delimiter
stands behind them, and a captured statement as the body that returns what the converter makes of it. -/
namespace ScriptBridge

open Script (Expr Number Token TokenKind)
open Script.Token (plain)

/-- The expression of a number. -/
def Double.expr (x : Double) : Expr :=
  let magnitude : Expr :=
    if x.isInfinite then .name "Infinity" else .constant (.number (.ofDouble (.ofParts false x.magnitude)))
  if x.isNaN then .name "NaN" else if x.negative then .negate magnitude else magnitude

mutual
/-- The expression as which a value is read. -/
def Native.expr (table : String) (owner : Option Session) : Native → Expr
  | .null => .constant .null
  | .bool b => .constant (.bool b)
  | .int n => (Double.ofInt n.toInt).expr
  | .long n => (Double.ofInt n.toInt).expr
  | .double x => x.expr
  | .text s => .constant (.string (.text s))
  | .array items => .array (exprs table owner items)
  | .ref r =>
    if Expression.nameable owner r then
      .index (.name table) (.constant (.number (.ofDouble (.ofNat r.handle.index))))
    else .constant .null
  | .foreign _ => .constant .null

def Native.exprs (table : String) (owner : Option Session) : List Native → List Expr
  | [] => []
  | v :: rest => v.expr table owner :: exprs table owner rest
end

namespace Script.Parser

/-- What ends an expression. -/
def Stops (rest : List Token) : Prop :=
  ∃ m more, rest = plain (.mark m) :: more ∧ (m = "," ∨ m = "]" ∨ m = ")" ∨ m = ";")

/-- Tokens that are read as one expression, with fuel in proportion to them. -/
def Parses (ts : List Token) (e : Expr) : Prop :=
  ∀ fuel rest, 8 * ts.length ≤ fuel → Stops rest → assignment fuel (ts ++ rest) = .ok (e, rest)

section Steps

variable {fuel : Nat} {ts rest rest' : List Token} {t : Token} {e e' : Expr}

theorem suffixes_stop (calls : Bool) (hrest : Stops rest) :
    suffixes calls (fuel + 1) e rest = .ok (e, rest) := by
  obtain ⟨m, more, rfl, rfl | rfl | rfl | rfl⟩ := hrest <;> simp [suffixes, isMark, plain]

private theorem operators_stop (strength : Nat) (hrest : Stops rest) :
    operators (fuel + 1) strength e rest = .ok (e, rest) := by
  obtain ⟨m, more, rfl, rfl | rfl | rfl | rfl⟩ := hrest <;> simp [operators, binary?, plain]

theorem operand_of_primary (hop : prefixOp? t = none) (hprimary : primary fuel (t :: ts) = .ok (e, rest))
    (hsuffixes : suffixes true fuel e rest = .ok (e', rest')) : operand (fuel + 1) (t :: ts) = .ok (e', rest') := by
  rw [operand, hop]
  simp only [hprimary]
  exact hsuffixes

private theorem assignment_of_operand (hoperand : operand (fuel + 1) ts = .ok (e, rest)) (hrest : Stops rest) :
    assignment (fuel + 3) ts = .ok (e, rest) := by
  have hclimb : climb (fuel + 2) 1 ts = .ok (e, rest) := by
    rw [climb, hoperand]
    exact operators_stop 1 hrest
  have hmark : isMark "=" rest = false := by
    obtain ⟨m, more, rfl, rfl | rfl | rfl | rfl⟩ := hrest <;> simp [isMark, plain]
  rw [assignment, hclimb]
  simp only [bind, Except.bind, hmark]
  rfl

end Steps

/-- Tokens that are read as an operand, with fuel in proportion to them. -/
theorem parses_of_operand {ts : List Token} {e : Expr} (hne : ts ≠ [])
    (h : ∀ fuel rest, 8 * ts.length ≤ fuel + 3 → Stops rest → operand (fuel + 1) (ts ++ rest) = .ok (e, rest)) :
    Parses ts e := by
  intro fuel rest hfuel hrest
  have hpos := List.length_pos_iff.2 hne
  obtain ⟨fuel, rfl⟩ : ∃ n, fuel = n + 3 := ⟨fuel - 3, by omega⟩
  exact assignment_of_operand (h fuel rest hfuel hrest) hrest

/-- In front of a mark that is no comma one expression is all that is read. -/
theorem Parses.expression {ts : List Token} {e : Expr} (h : Parses ts e) {m : String} (hm : m = "]" ∨ m = ")" ∨ m = ";")
    (rest : List Token) {fuel : Nat} (hfuel : 8 * ts.length ≤ fuel) :
    Parser.expression (fuel + 1) (ts ++ plain (.mark m) :: rest) = .ok (e, plain (.mark m) :: rest) := by
  have hcomma : isMark "," (plain (.mark m) :: rest) = false := by rcases hm with rfl | rfl | rfl <;> rfl
  rw [Parser.expression, h fuel (plain (.mark m) :: rest) hfuel ⟨m, rest, rfl, .inr hm⟩]
  simp only [bind, Except.bind, hcomma]
  rfl

private theorem operand_single {t : Token} {e : Expr} {rest : List Token} (hop : prefixOp? t = none)
    (hprimary : ∀ fuel, primary (fuel + 1) (t :: rest) = .ok (e, rest)) (hrest : Stops rest) (fuel : Nat) :
    operand (fuel + 2) (t :: rest) = .ok (e, rest) :=
  operand_of_primary hop (hprimary fuel) (suffixes_stop true hrest)

private theorem parses_single {k : TokenKind} {e : Expr} (hop : prefixOp? (plain k) = none)
    (hprimary : ∀ fuel rest, primary (fuel + 1) (plain k :: rest) = .ok (e, rest)) : Parses [plain k] e :=
  parses_of_operand (by simp) fun fuel rest hfuel hrest => by
    obtain ⟨fuel, rfl⟩ : ∃ n, fuel = n + 1 := ⟨fuel - 1, by simp at hfuel; omega⟩
    exact operand_single hop (fun f => hprimary f rest) hrest fuel

private theorem primary_number (x : Number) (fuel : Nat) (rest : List Token) :
    primary (fuel + 1) (plain (.number x) :: rest) = .ok (.constant (.number x), rest) := rfl

theorem prefixOp?_name {x : String} (hx : x ∉ reserved) : prefixOp? (plain (.word x)) = none := by
  have htypeof : x ≠ "typeof" := by rintro rfl; exact hx (by decide)
  have hvoid : x ≠ "void" := by rintro rfl; exact hx (by decide)
  have hdelete : x ≠ "delete" := by rintro rfl; exact hx (by decide)
  unfold prefixOp? plain
  split <;> simp_all

/-- A word that is not reserved is a name. -/
theorem primary_name {x : String} (hx : x ∉ reserved) (fuel : Nat) (rest : List Token) :
    primary (fuel + 1) (plain (.word x) :: rest) = .ok (.name x, rest) := by
  have hne {w : String} (hw : w ∈ reserved) : x ≠ w := by rintro rfl; exact hx hw
  have hnull : x ≠ "null" := hne (by decide)
  have htrue : x ≠ "true" := hne (by decide)
  have hfalse : x ≠ "false" := hne (by decide)
  have hthis : x ≠ "this" := hne (by decide)
  have hnew : x ≠ "new" := hne (by decide)
  have himport : x ≠ "import" := hne (by decide)
  unfold primary plain
  split <;> simp_all

private theorem operand_magnitude (x : Double) (fuel : Nat) {rest : List Token} (hrest : Stops rest) :
    operand (fuel + 2) (plain (if x.isInfinite then .word "Infinity"
      else .number (.ofDouble (.ofParts false x.magnitude))) :: rest) =
        .ok (if x.isInfinite then .name "Infinity" else .constant (.number (.ofDouble (.ofParts false x.magnitude))),
          rest) := by
  cases x.isInfinite with
  | true => exact operand_single rfl (fun f => primary_name (by decide) f rest) hrest fuel
  | false => exact operand_single rfl (fun f => primary_number _ f rest) hrest fuel

private theorem parses_double (x : Double) : Parses (x.tokens.map plain) x.expr := by
  unfold Double.tokens Double.expr
  cases x.isNaN with
  | true => exact parses_single rfl (primary_name (by decide))
  | false =>
    refine parses_of_operand (by simp) fun fuel rest hfuel hrest => ?_
    obtain ⟨fuel, rfl⟩ : ∃ n, fuel = n + 2 := ⟨fuel - 2, by
      simp only [Bool.false_eq_true, if_false, List.map_append, List.length_append, List.map_cons, List.length_cons] at hfuel
      omega⟩
    cases x.negative with
    | true =>
      have hmagnitude := operand_magnitude x fuel hrest
      have hop : prefixOp? (plain (.mark "-")) = some .negate := rfl
      simp only [Bool.false_eq_true, if_false, if_true, List.map_cons, List.map_nil, List.cons_append, List.nil_append]
      rw [operand, hop]
      simp only [hmagnitude]
      rfl
    | false => exact operand_magnitude x (fuel + 1) hrest

/-- An index by a number is passed up to its closing bracket. -/
theorem suffixes_index (e : Expr) (x : Number) (fuel : Nat) (rest : List Token) :
    suffixes true (fuel + 10) e (plain (.mark "[") :: plain (.number x) :: plain (.mark "]") :: rest) =
      suffixes true (fuel + 9) (.index e (.constant (.number x))) rest := by
  have hindex : expression (fuel + 9) (plain (.number x) :: plain (.mark "]") :: rest) =
      .ok (.constant (.number x), plain (.mark "]") :: rest) :=
    (parses_single rfl (primary_number x)).expression (.inl rfl) rest (by simp)
  have hdot : isMark "." (plain (.mark "[") :: plain (.number x) :: plain (.mark "]") :: rest) = false := rfl
  have hopen : isMark "[" (plain (.mark "[") :: plain (.number x) :: plain (.mark "]") :: rest) = true := rfl
  rw [suffixes, hdot, hopen]
  simp only [Bool.false_eq_true, if_false, if_true, List.drop_one, List.tail_cons, hindex]
  rfl

theorem suffixes_member (calls : Bool) (e : Expr) (w : String) (fuel : Nat) (rest : List Token) :
    suffixes calls (fuel + 1) e (plain (.mark ".") :: plain (.word w) :: rest) =
      suffixes calls fuel (.member e w) rest := rfl

/-- A call is passed up to the parenthesis that closes its arguments. -/
theorem suffixes_call (e : Expr) {fuel : Nat} {ts rest : List Token} {es : List Expr}
    (hitems : items false ")" fuel [] ts = .ok (es, rest)) :
    suffixes true (fuel + 1) e (plain (.mark "(") :: ts) = suffixes true fuel (.call e es) rest := by
  have hdot : isMark "." (plain (.mark "(") :: ts) = false := rfl
  have hindex : isMark "[" (plain (.mark "(") :: ts) = false := rfl
  have hopen : isMark "(" (plain (.mark "(") :: ts) = true := rfl
  rw [suffixes, hdot, hindex, hopen]
  simp only [Bool.false_eq_true, if_false, Bool.true_and, if_true, List.drop_one, List.tail_cons, hitems]
  rfl

/-- An index of a name. -/
theorem parses_slot {table : String} (htable : table ∉ reserved) (x : Number) :
    Parses ([.word table, .mark "[", .number x, .mark "]"].map plain) (.index (.name table) (.constant (.number x))) := by
  refine parses_of_operand (by simp) fun fuel rest hfuel hrest => ?_
  obtain ⟨fuel, rfl⟩ : ∃ n, fuel = n + 10 := ⟨fuel - 10, by simp at hfuel; omega⟩
  have hsuffixes : suffixes true (fuel + 10) (.name table)
      (plain (.mark "[") :: plain (.number x) :: plain (.mark "]") :: rest) =
        .ok (.index (.name table) (.constant (.number x)), rest) :=
    (suffixes_index (.name table) x fuel rest).trans (suffixes_stop true hrest)
  exact operand_of_primary (prefixOp?_name htable) (primary_name htable _ _) hsuffixes

/-- The first token of a value closes nothing. -/
private theorem tokens_head (table : String) (owner : Option Session) (v : Native) :
    ∃ k ks, v.tokens table owner = k :: ks ∧ k ≠ .mark "]" ∧ k ≠ .mark "," ∧ k ≠ .mark ")" := by
  have hdouble (x : Double) : ∃ k ks, x.tokens = k :: ks ∧ k ≠ .mark "]" ∧ k ≠ .mark "," ∧ k ≠ .mark ")" := by
    unfold Double.tokens
    cases x.isNaN <;> cases x.negative <;> cases x.isInfinite <;>
      exact ⟨_, _, rfl, by simp, by simp, by simp⟩
  cases v with
  | int n => exact hdouble _
  | long n => exact hdouble _
  | double x => exact hdouble x
  | ref r =>
    rw [Native.tokens]
    split <;> exact ⟨_, _, rfl, by simp, by simp, by simp⟩
  | _ => exact ⟨_, _, rfl, by simp, by simp, by simp⟩

private theorem primary_list (fuel : Nat) (ts : List Token) : primary (fuel + 1) (plain (.mark "[") :: ts) =
    (do let (es, rest) ← items true "]" fuel [] ts; return (.array es, rest)) := rfl

private theorem items_next {holes : Bool} {close : String} {fuel : Nat} {found : List Expr} {t : Token}
    {ts rest : List Token} {e : Expr} (hclose : isMark close (t :: ts) = false) (hcomma : isMark "," (t :: ts) = false)
    (hassignment : assignment fuel (t :: ts) = .ok (e, rest)) : items holes close (fuel + 1) found (t :: ts) =
      if isMark close rest then .ok ((e :: found).reverse, rest.drop 1)
      else expect "," rest >>= items holes close fuel (e :: found) := by
  rw [items, hclose, hcomma, Bool.and_false, hassignment]
  rfl

mutual
/-- The tokens of a value are read as its expression. -/
theorem parses_value {table : String} (htable : table ∉ reserved) (owner : Option Session) (v : Native) :
    Parses ((v.tokens table owner).map plain) (v.expr table owner) := by
  match v with
  | .null => exact parses_single rfl fun _ _ => rfl
  | .bool true => exact parses_single rfl fun _ _ => rfl
  | .bool false => exact parses_single rfl fun _ _ => rfl
  | .int _ => exact parses_double _
  | .long _ => exact parses_double _
  | .double x => exact parses_double x
  | .text s => exact parses_single rfl fun _ _ => rfl
  | .array values =>
    refine parses_of_operand (by simp [Native.tokens]) fun fuel rest hfuel hrest => ?_
    simp only [Native.tokens, List.map_append, List.map_cons, List.map_nil, List.length_append, List.length_cons,
      List.length_nil, List.length_map, List.cons_append, List.append_assoc, List.nil_append] at hfuel ⊢
    obtain ⟨fuel, rfl⟩ : ∃ n, fuel = n + 2 := ⟨fuel - 2, by omega⟩
    have hitems := items_values htable owner values true (.inl rfl) [] rest (fuel + 1) (by omega)
    refine operand_of_primary rfl ?_ (suffixes_stop true hrest)
    rw [primary_list, hitems]
    rfl
  | .ref r =>
    rw [Native.tokens, Native.expr]
    split
    · exact parses_slot htable _
    · exact parses_single rfl fun _ _ => rfl
  | .foreign _ => exact parses_single rfl fun _ _ => rfl

/-- The tokens of values with commas between them are read as their expressions, up to a closing mark. -/
theorem items_values {table : String} (htable : table ∉ reserved) (owner : Option Session) (vs : List Native)
    (holes : Bool) {close : String} (hclose : close = "]" ∨ close = ")") (found : List Expr) (rest : List Token)
    (fuel : Nat) (hfuel : 8 * (Native.itemTokens table owner vs).length < fuel) :
    items holes close fuel found ((Native.itemTokens table owner vs).map plain ++ plain (.mark close) :: rest) =
      .ok (found.reverse ++ Native.exprs table owner vs, rest) := by
  obtain ⟨fuel, rfl⟩ : ∃ n, fuel = n + 1 := ⟨fuel - 1, by omega⟩
  match vs with
  | [] => simp [Native.itemTokens, Native.exprs, items, isMark, plain]
  | v :: more =>
    obtain ⟨k, ks, hhead, hbracket, hcomma, hparen⟩ := tokens_head table owner v
    have hnotMark {m : String} (hm : k ≠ .mark m) (ts : List Token) : isMark m (plain k :: ts) = false := by
      cases k with
      | mark n => simpa [isMark, plain] using hm
      | _ => rfl
    have hnotClose (ts : List Token) : isMark close (plain k :: ts) = false := by
      rcases hclose with rfl | rfl
      · exact hnotMark hbracket ts
      · exact hnotMark hparen ts
    cases more with
    | nil =>
      have hself : isMark close (plain (.mark close) :: rest) = true := by simp [isMark, plain]
      have hstop : Stops (plain (.mark close) :: rest) := ⟨close, rest, rfl, by rcases hclose with rfl | rfl <;> simp⟩
      have hvalue := parses_value htable owner v fuel (plain (.mark close) :: rest) (by
        simp only [Native.itemTokens, List.length_map] at hfuel ⊢
        omega) hstop
      simp only [Native.itemTokens, hhead, List.map_cons, List.cons_append] at hvalue ⊢
      rw [items_next (hnotClose _) (hnotMark hcomma _) hvalue, hself]
      simp [Native.exprs]
    | cons w more =>
      have hother (ts : List Token) : isMark close (plain (.mark ",") :: ts) = false := by
        rcases hclose with rfl | rfl <;> rfl
      have hlength : (Native.itemTokens table owner (v :: w :: more)).length =
          (v.tokens table owner).length + 1 + (Native.itemTokens table owner (w :: more)).length := by
        simp only [Native.itemTokens, List.length_append, List.length_cons]
        omega
      have htokens (ts : List Token) : (Native.itemTokens table owner (v :: w :: more)).map plain ++ ts =
          (v.tokens table owner).map plain ++
            (plain (.mark ",") :: ((Native.itemTokens table owner (w :: more)).map plain ++ ts)) := by
        simp [Native.itemTokens]
      have hmore := items_values htable owner (w :: more) holes hclose (v.expr table owner :: found) rest fuel
        (by omega)
      have hvalue := parses_value htable owner v fuel
        (plain (.mark ",") :: ((Native.itemTokens table owner (w :: more)).map plain ++ plain (.mark close) :: rest))
        (by rw [List.length_map]; omega) ⟨",", _, rfl, .inl rfl⟩
      rw [htokens]
      simp only [hhead, List.map_cons, List.cons_append] at hvalue ⊢
      rw [items_next (hnotClose _) (hnotMark hcomma _) hvalue, hother]
      have hexpect : expect "," (plain (.mark ",") ::
          ((Native.itemTokens table owner (w :: more)).map plain ++ plain (.mark close) :: rest)) =
            .ok ((Native.itemTokens table owner (w :: more)).map plain ++ plain (.mark close) :: rest) := rfl
      rw [if_neg Bool.false_ne_true, hexpect]
      change items holes close fuel (v.expr table owner :: found) _ = _
      rw [hmore]
      simp [Native.exprs]
end

end Script.Parser

mutual
/-- How deep the brackets of a rendered value are nested. -/
def Native.nesting : Native → Nat
  | .array items => itemNesting items + 1
  | .ref _ => 1
  | _ => 0

def Native.itemNesting : List Native → Nat
  | [] => 0
  | v :: rest => max v.nesting (itemNesting rest)
end

namespace Script.Parser

private theorem tooDeep_open {m : String} (hm : m = "[" ∨ m = "(") {depth : Nat} (hdepth : depth < depthBound)
    (ts : List Token) : tooDeep depth (plain (.mark m) :: ts) = tooDeep (depth + 1) ts := by
  rcases hm with rfl | rfl <;> simp [tooDeep, plain, Nat.not_le.2 hdepth]

private theorem tooDeep_close {m : String} (hm : m = "]" ∨ m = ")") (depth : Nat) (ts : List Token) :
    tooDeep (depth + 1) (plain (.mark m) :: ts) = tooDeep depth ts := by
  rcases hm with rfl | rfl <;> simp [tooDeep, plain]

private theorem tooDeep_double (x : Double) (depth : Nat) (ts : List Token) :
    tooDeep depth (x.tokens.map plain ++ ts) = tooDeep depth ts := by
  unfold Double.tokens
  cases x.isNaN <;> cases x.negative <;> cases x.isInfinite <;> simp [tooDeep, plain]

mutual
/-- Values nested no deeper than the reader goes are read. -/
theorem tooDeep_value (table : String) (owner : Option Session) (v : Native) {depth : Nat}
    (hdepth : depth + v.nesting ≤ depthBound) (ts : List Token) :
    tooDeep depth ((v.tokens table owner).map plain ++ ts) = tooDeep depth ts := by
  match v with
  | .null => rfl
  | .bool _ => rfl
  | .int _ => exact tooDeep_double _ _ _
  | .long _ => exact tooDeep_double _ _ _
  | .double _ => exact tooDeep_double _ _ _
  | .text _ => rfl
  | .array values =>
    rw [Native.nesting] at hdepth
    have hitems := tooDeep_values table owner values (show depth + 1 + Native.itemNesting values ≤ depthBound by omega) (plain (.mark "]") :: ts)
    simp only [Native.tokens, List.map_append, List.map_cons, List.map_nil, List.cons_append, List.append_assoc,
      List.nil_append]
    rw [tooDeep_open (.inl rfl) (by omega), hitems, tooDeep_close (.inl rfl)]
  | .ref r =>
    rw [Native.nesting] at hdepth
    rw [Native.tokens]
    split
    · have hword : tooDeep depth (plain (.word table) ::
          ([.mark "[", .number (.ofDouble (.ofNat r.handle.index)), .mark "]"].map plain ++ ts)) =
            tooDeep depth ([.mark "[", .number (.ofDouble (.ofNat r.handle.index)), .mark "]"].map plain ++ ts) := rfl
      have hnumber : tooDeep (depth + 1) (plain (.number (.ofDouble (.ofNat r.handle.index))) ::
          plain (.mark "]") :: ts) = tooDeep (depth + 1) (plain (.mark "]") :: ts) := rfl
      simp only [List.map_cons, List.map_nil, List.cons_append, List.nil_append] at hword ⊢
      rw [hword, tooDeep_open (.inl rfl) (by omega), hnumber, tooDeep_close (.inl rfl)]
    · rfl
  | .foreign _ => rfl

theorem tooDeep_values (table : String) (owner : Option Session) (vs : List Native) {depth : Nat}
    (hdepth : depth + Native.itemNesting vs ≤ depthBound) (ts : List Token) :
    tooDeep depth ((Native.itemTokens table owner vs).map plain ++ ts) = tooDeep depth ts := by
  match vs with
  | [] => rfl
  | [v] =>
    rw [Native.itemNesting] at hdepth
    exact tooDeep_value table owner v (by omega) ts
  | v :: w :: more =>
    rw [Native.itemNesting] at hdepth
    have hmore := tooDeep_values table owner (w :: more) (show depth + Native.itemNesting (w :: more) ≤ depthBound by omega) ts
    have hcomma : tooDeep depth (plain (.mark ",") :: ((Native.itemTokens table owner (w :: more)).map plain ++ ts)) =
        tooDeep depth ((Native.itemTokens table owner (w :: more)).map plain ++ ts) := rfl
    have htokens : (Native.itemTokens table owner (v :: w :: more)).map plain ++ ts =
        (v.tokens table owner).map plain ++
          (plain (.mark ",") :: ((Native.itemTokens table owner (w :: more)).map plain ++ ts)) := by
      simp [Native.itemTokens]
    rw [htokens, tooDeep_value table owner v (by omega), hcomma, hmore]
end

/-- The tokens of a body that returns what a function makes of a value. -/
def captureTokens (converter table : String) (owner : Option Session) (v : Native) : List TokenKind :=
  .word "return" :: .word converter :: .mark "(" :: (v.tokens table owner ++ [.mark ")", .mark ";"])

/-- A call of a name ends where its arguments end. -/
private theorem expression_call {name : String} (hname : name ∉ reserved) {fuel : Nat} {ts rest : List Token}
    {es : List Expr} (hitems : items false ")" (fuel + 1) [] ts = .ok (es, plain (.mark ";") :: rest)) :
    expression (fuel + 6) (plain (.word name) :: plain (.mark "(") :: ts) =
      .ok (.call (.name name) es, plain (.mark ";") :: rest) := by
  have hstop : Stops (plain (.mark ";") :: rest) := ⟨";", rest, rfl, by simp⟩
  have hsuffixes : suffixes true (fuel + 2) (.name name) (plain (.mark "(") :: ts) =
      .ok (.call (.name name) es, plain (.mark ";") :: rest) :=
    (suffixes_call (.name name) hitems).trans (suffixes_stop true hstop)
  have hassignment := assignment_of_operand
    (operand_of_primary (prefixOp?_name hname) (primary_name hname _ _) hsuffixes) hstop
  rw [expression, hassignment]
  rfl

theorem statement_return (w : String) (ts : List Token) :
    statement true (plain (.word "return") :: plain (.word w) :: ts) = (do
      let (e, rest) ← expression (fuelFor (plain (.word "return") :: plain (.word w) :: ts)) (plain (.word w) :: ts)
      return (.result (some e), ← endStatement rest)) := rfl

theorem body_word (inBody : Bool) (fuel : Nat) (w : String) (ts : List Token) :
    body inBody (fuel + 1) (plain (.word w) :: ts) = (do
      let (s, rest) ← statement inBody (plain (.word w) :: ts)
      return s :: (← body inBody fuel rest)) := by
  cases inBody <;> rfl

/-- A body that returns an expression is read where the expression is read up to the semicolon. -/
theorem statements_return {w : String} {ts : List Token} (hdeep : tooDeep 0 (plain (.word w) :: ts) = false) {fuel : Nat}
    (hfuel : fuel ≤ 8 * ts.length + 24) {e : Expr}
    (hread : expression fuel (plain (.word w) :: ts) = .ok (e, [plain (.mark ";"), bodyEnd])) :
    statements true (plain (.word "return") :: plain (.word w) :: ts) = .ok [.result (some e)] := by
  have hshallow : tooDeep 0 (plain (.word "return") :: plain (.word w) :: ts) = false := hdeep
  have hmore : fuel ≤ fuelFor (plain (.word "return") :: plain (.word w) :: ts) := by
    simp only [fuelFor, List.length_cons]
    omega
  rw [statements, hshallow, if_neg Bool.false_ne_true, List.length_cons, List.length_cons, body_word, statement_return,
    (allExtend hmore).expression.apply hread]
  rfl

/-- A body that returns a call is read where the arguments are read up to their closing parenthesis. -/
theorem statements_call {name : String} (hname : name ∉ reserved) {ts : List Token} (hdeep : tooDeep 1 ts = false)
    {fuel : Nat} (hfuel : fuel ≤ 8 * ts.length) {es : List Expr}
    (hitems : items false ")" fuel [] ts = .ok (es, [plain (.mark ";"), bodyEnd])) :
    statements true (plain (.word "return") :: plain (.word name) :: plain (.mark "(") :: ts) =
      .ok [.result (some (.call (.name name) es))] := by
  have hshallow : tooDeep 0 (plain (.word name) :: plain (.mark "(") :: ts) = false := by
    have hword : tooDeep 0 (plain (.word name) :: plain (.mark "(") :: ts) = tooDeep 0 (plain (.mark "(") :: ts) := rfl
    rw [hword, tooDeep_open (.inr rfl) (by decide), hdeep]
  have hitems' : items false ")" (8 * ts.length + 1) [] ts = .ok (es, [plain (.mark ";"), bodyEnd]) :=
    ((allExtend (Nat.le_succ_of_le hfuel)).items false ")" []).apply hitems
  exact statements_return hshallow (by simp only [List.length_cons]; omega) (expression_call hname hitems')

/-- A captured value is one statement: the call of the converter on the expression of the value. -/
theorem statements_capture {converter table : String} (hconverter : converter ∉ reserved) (htable : table ∉ reserved)
    (owner : Option Session) {v : Native} (hnesting : v.nesting < depthBound) :
    statements true ((captureTokens converter table owner v).map plain ++ [bodyEnd]) =
      .ok [.result (some (.call (.name converter) [v.expr table owner]))] := by
  have htokens (ts : List Token) : (captureTokens converter table owner v).map plain ++ ts =
      plain (.word "return") :: plain (.word converter) :: plain (.mark "(") ::
        ((v.tokens table owner).map plain ++ plain (.mark ")") :: plain (.mark ";") :: ts) := by
    simp [captureTokens]
  have hdeep : tooDeep 1 ((v.tokens table owner).map plain ++ plain (.mark ")") :: plain (.mark ";") :: [bodyEnd]) =
      false := by
    rw [tooDeep_value table owner v (by omega), tooDeep_close (.inr rfl)]
    rfl
  have hitems : items false ")" (8 * (v.tokens table owner).length + 8) [] ((v.tokens table owner).map plain ++
      plain (.mark ")") :: plain (.mark ";") :: [bodyEnd]) = .ok ([v.expr table owner], [plain (.mark ";"), bodyEnd]) :=
    items_values htable owner [v] false (.inr rfl) [] _ _ (by simp only [Native.itemTokens]; omega)
  rw [htokens]
  refine statements_call hconverter hdeep ?_ hitems
  simp only [List.length_append, List.length_map, List.length_cons]
  omega

end Script.Parser

namespace Script

open Script.Parser (reserved depthBound)
open Script.Token (Scans scans_mark scans_word)

theorem scans_name {x : String} (hx : isIdentifier x.toList = true) {d : Char} (hd : isWordPart d = false)
    (rest : List Char) : Scans x.toList [.word x] (d :: rest) := by
  have hhead : ∀ c ∈ (d :: rest).head?, isWordPart c = false := by
    intro c hc
    obtain rfl := Option.some.inj hc
    exact hd
  have hword := scans_word hx hhead
  rwa [String.ofList_toList] at hword

private theorem scans_capture {converter table : String} (hconverter : isIdentifier converter.toList = true)
    (htable : isIdentifier table.toList = true) (owner : Option Session) (v : Native) :
    Scans ("return ".toList ++ (converter.toList ++ ('(' :: (Expression.argument table owner v ++ [')', ';']))))
      (Parser.captureTokens converter table owner v) [] := by
  have hreturn (rest : List Char) : Scans "return".toList [.word "return"] (' ' :: rest) :=
    scans_name (by decide) (by decide +kernel) rest
  have hblank (rest : List Char) : Scans [' '] [] rest := .blank (by decide) (by decide) rest
  have hend : Scans [')', ';'] [.mark ")", .mark ";"] [] :=
    (scans_mark (c := ')') (by decide) _).append (scans_mark (c := ';') (by decide) [])
  have hdelim : Grammar.Delimited [')', ';'] := by
    intro c hc
    obtain rfl := Option.some.inj hc
    exact .inr (.inr rfl)
  have hvalue := Token.scans_argument htable owner v hdelim
  have hopen := (scans_mark (c := '(') (by decide) _).append (Scans.append hvalue hend)
  have hname := (scans_name hconverter (by decide +kernel) _).append hopen
  have hall := (hreturn _).append ((hblank _).append hname)
  simpa [Parser.captureTokens] using hall

end Script

/-- What a session captures of a value is a body that returns what the converter makes of it. -/
theorem Session.ofBody_capture {s : Session} (hconverter : isIdentifier s.config.converterName.toList = true)
    (htable : isIdentifier s.config.tableName.toList = true)
    (hconverter' : s.config.converterName ∉ Script.Parser.reserved)
    (htable' : s.config.tableName ∉ Script.Parser.reserved) {v : Native}
    (hnesting : v.nesting < Script.Parser.depthBound) :
    Script.Program.ofBody (s.captureScript (s.argument v)).toList =
      .ok (.statements [.result (some (.call (.name s.config.converterName) [v.expr s.config.tableName (some s)]))]) := by
  have htext : (s.captureScript (s.argument v)).toList = "return ".toList ++ (s.config.converterName.toList ++
      ('(' :: (Expression.argument s.config.tableName (some s) v ++ [')', ';']))) := by
    simp [Session.captureScript, Session.argument, String.toList_append]
  rw [Script.Program.ofBody, htext, (Script.scans_capture hconverter htable (some s) v).scan,
    Script.Parser.statements_capture hconverter' htable' (some s) hnesting]
  rfl

end ScriptBridge
