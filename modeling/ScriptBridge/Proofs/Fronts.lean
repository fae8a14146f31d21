import ScriptBridge.Script.Parser

/-! What is read of some tokens. A reader looks at one token behind what it reads, and only at its kind: whatever
follows, the same is read, and with more fuel as well. -/
namespace ScriptBridge.Script.Parser

abbrev Reader (α : Type) := List Token → Except SyntaxFault (α × List Token)

/-! The readers are made of these steps. -/

namespace Reader

variable {α β γ : Type}

def done (a : α) : Reader α := fun ts => .ok (a, ts)

def seq (p : Reader α) (q : α → Reader β) : Reader β := fun ts => p ts >>= fun r => q r.1 r.2

/-- What does not depend on the tokens has to succeed first. -/
def check (r : Except SyntaxFault γ) (p : γ → Reader α) : Reader α := fun ts => r >>= fun c => p c ts

/-- The kind of the token at the front may choose a reader for what is behind it. -/
def onHead (choose : TokenKind → Option (Reader α)) (otherwise : Reader α) : Reader α
  | [] => otherwise []
  | t :: ts => (choose t.kind).elim (otherwise (t :: ts)) fun p => p ts

def onMark (s : String) (p : Reader α) : Reader α → Reader α :=
  onHead fun k => if k = .mark s then some p else none

/-- A mark has to stand at the front. -/
def expecting (s : String) (p : Reader α) : Reader α := onMark s p fun ts => complain (.expecting s) ts

end Reader

open Reader

/-- The kind of the token at the front. -/
def frontKind (ts : List Token) : Option TokenKind := ts.head?.map Token.kind

/-- One reader reads all that another one reads, whatever stands behind it in place of what stood there, as long as it
begins with a token of the same kind. -/
def Extends {α : Type} (p p' : Reader α) : Prop :=
  ∀ ts a rest, p ts = .ok (a, rest) → ∃ used, ts = used ++ rest ∧
    ∀ rest', frontKind rest' = frontKind rest → p' (used ++ rest') = .ok (a, rest')

theorem frontKind_append {rest rest' : List Token} (h : frontKind rest' = frontKind rest) (used : List Token) :
    frontKind (used ++ rest') = frontKind (used ++ rest) := by
  cases used with
  | nil => exact h
  | cons t used => rfl

private theorem complain_ne_ok {α : Type} (f : SyntaxFault) (ts : List Token) (a : α) : complain f ts ≠ .ok a := by
  unfold complain
  split <;> nofun

/-- A mark that is passed stands at the front. -/
theorem eq_of_expect {s : String} {ts rest : List Token} (h : expect s ts = .ok rest) :
    ∃ close, ts = close :: rest ∧ close.kind = .mark s := by
  unfold expect at h
  split at h
  · rename_i hmark
    rcases ts with _ | ⟨⟨k, newLine⟩, ts⟩
    · cases hmark
    · cases k with
      | mark m =>
        obtain rfl : m = s := by simpa [isMark] using hmark
        exact ⟨_, congrArg _ (Except.ok.inj h), rfl⟩
      | _ => cases hmark
  · exact absurd h (complain_ne_ok _ _ _)

namespace Extends

variable {α β γ : Type} {p p' : Reader α} {q q' : α → Reader β}

theorem apply (h : Extends p p') {ts rest : List Token} {a : α} (hp : p ts = .ok (a, rest)) : p' ts = .ok (a, rest) := by
  obtain ⟨used, rfl, hmore⟩ := h ts a rest hp
  exact hmore rest rfl

theorem of_fails (h : ∀ ts a rest, p ts ≠ .ok (a, rest)) : Extends p p' := fun ts a rest hp => absurd hp (h ts a rest)

theorem done (a : α) : Extends (Reader.done a) (Reader.done a) := by
  rintro ts _ _ ⟨⟩
  exact ⟨[], rfl, fun rest' _ => rfl⟩

theorem seq (hp : Extends p p') (hq : ∀ a, Extends (q a) (q' a)) : Extends (p.seq q) (p'.seq q') := by
  intro ts b rest h
  rcases hfirst : p ts with fault | ⟨a, mid⟩
  · simp [Reader.seq, hfirst, bind, Except.bind] at h
  · have hsecond : q a mid = .ok (b, rest) := by
      rw [← h, Reader.seq, hfirst]
      rfl
    obtain ⟨used, rfl, hused⟩ := hp ts a mid hfirst
    obtain ⟨more, rfl, hmore⟩ := hq a mid b rest hsecond
    refine ⟨used ++ more, (List.append_assoc ..).symm, fun rest' hrest => ?_⟩
    have hread := hused (more ++ rest') (frontKind_append hrest more)
    rw [List.append_assoc, Reader.seq, hread]
    exact hmore rest' hrest

theorem check (r : Except SyntaxFault γ) {q q' : γ → Reader α} (hq : ∀ c, Extends (q c) (q' c)) :
    Extends (Reader.check r q) (Reader.check r q') := by
  cases r with
  | error f => exact of_fails fun ts a rest h => nomatch h
  | ok c => exact hq c

theorem onHead {f f' : TokenKind → Option (Reader α)} (hf : ∀ k, Option.Rel Extends (f k) (f' k)) (hp : Extends p p') :
    Extends (Reader.onHead f p) (Reader.onHead f' p') := by
  rintro (_ | ⟨t, ts⟩) a rest h
  · obtain ⟨used, hused, hmore⟩ := hp [] a rest h
    obtain ⟨rfl, rfl⟩ := List.append_eq_nil_iff.1 hused.symm
    refine ⟨[], rfl, fun rest' hrest => ?_⟩
    cases rest' with
    | nil => exact hmore [] rfl
    | cons t ts => cases hrest
  · have hchoice := hf t.kind
    rw [Reader.onHead] at h
    cases hchoose : f t.kind with
    | some q =>
      rw [hchoose] at h hchoice
      cases hchoose' : f' t.kind with
      | none =>
        rw [hchoose'] at hchoice
        cases hchoice
      | some q' =>
        rw [hchoose'] at hchoice
        obtain ⟨hq⟩ := hchoice
        obtain ⟨used, rfl, hmore⟩ := hq ts a rest h
        refine ⟨t :: used, rfl, fun rest' hrest => ?_⟩
        rw [List.cons_append, Reader.onHead, hchoose']
        exact hmore rest' hrest
    | none =>
      rw [hchoose] at h hchoice
      obtain ⟨used, hused, hmore⟩ := hp (t :: ts) a rest h
      refine ⟨used, hused, fun rest' hrest => ?_⟩
      -- What is read begins with a token of the same kind, so that no choice is made at it either.
      have hfront := frontKind_append hrest used
      rw [← hused] at hfront
      obtain ⟨t', ts', hts', hkind⟩ : ∃ t' ts', used ++ rest' = t' :: ts' ∧ t'.kind = t.kind := by
        cases hcases : used ++ rest' with
        | nil => rw [hcases] at hfront; cases hfront
        | cons t' ts' =>
          rw [hcases] at hfront
          exact ⟨t', ts', rfl, Option.some.inj hfront⟩
      have hnone' : f' t.kind = none := by
        cases hchoose' : f' t.kind with
        | none => rfl
        | some q' =>
          rw [hchoose'] at hchoice
          cases hchoice
      have hread := hmore rest' hrest
      rw [hts'] at hread ⊢
      rw [Reader.onHead, hkind, hnone']
      exact hread

theorem onMark (s : String) {r r' : Reader α} (hr : Extends r r') (hp : Extends p p') :
    Extends (Reader.onMark s r p) (Reader.onMark s r' p') := by
  refine onHead (fun k => ?_) hp
  split
  · exact .some hr
  · exact .none

theorem complain (f : SyntaxFault) : Extends (α := α) (fun ts => Parser.complain f ts) p' :=
  of_fails fun ts a rest => complain_ne_ok f ts (a, rest)

theorem unexpected : Extends (α := α) (fun ts => Parser.unexpected ts) p' := by
  refine of_fails fun ts a rest h => ?_
  unfold Parser.unexpected at h
  split at h <;> cases h

theorem expecting (s : String) (hp : Extends p p') : Extends (Reader.expecting s p) (Reader.expecting s p') :=
  .onMark s hp (.complain _)

end Extends

/-! Each reader in its steps. -/

theorem onMark_apply {α : Type} (s : String) (p q : Reader α) (ts : List Token) :
    onMark s p q ts = if isMark s ts then p (ts.drop 1) else q ts := by
  cases ts with
  | nil => rfl
  | cons t ts =>
    obtain ⟨k, newLine⟩ := t
    cases k with
    | mark m =>
      by_cases hm : m = s
      · simp [onMark, onHead, isMark, hm]
      · simp [onMark, onHead, isMark, hm]
    | _ => rfl

theorem expecting_apply {α : Type} (s : String) (p : Reader α) (ts : List Token) :
    expecting s p ts = expect s ts >>= p := by
  rw [expecting, onMark_apply, expect]
  split
  · rfl
  · unfold complain
    split <;> rfl

variable (fuel : Nat)

theorem expression_eq : expression (fuel + 1) = seq (assignment fuel) fun e =>
    onMark "," (seq (expression fuel) fun f => done (.sequence e f)) (done e) := by
  funext ts
  simp only [seq, onMark_apply]
  rfl

theorem assignment_eq : assignment (fuel + 1) = seq (climb fuel 1) fun e =>
    onMark "=" (check (checkTarget e) fun _ => seq (assignment fuel) fun v => done (.assign e v)) (done e) := by
  funext ts
  simp only [seq, onMark_apply]
  rfl

theorem climb_eq (strength : Nat) : climb (fuel + 1) strength = seq (operand fuel) fun e =>
    operators fuel strength e := rfl

private theorem binary?_kind (k : TokenKind) (newLine : Bool) : binary? ⟨k, newLine⟩ = binary? ⟨k, false⟩ := by
  cases newLine
  · rfl
  · unfold binary?
    split <;> simp_all

private theorem prefixOp?_kind (k : TokenKind) (newLine : Bool) : prefixOp? ⟨k, newLine⟩ = prefixOp? ⟨k, false⟩ := by
  cases newLine
  · rfl
  · unfold prefixOp?
    split <;> simp_all

theorem operators_eq (strength : Nat) (left : Expr) : operators (fuel + 1) strength left = onHead (fun k =>
    (binary? ⟨k, false⟩).bind fun op =>
      if strength ≤ op.1 then
        some (seq (climb fuel (op.1 + 1)) fun right => operators fuel strength (op.2 left right))
      else none) (done left) := by
  funext ts
  cases ts with
  | nil => rfl
  | cons t ts =>
    have hkind : binary? t = binary? ⟨t.kind, false⟩ := binary?_kind t.kind t.newLine
    rw [operators, onHead, hkind]
    rcases binary? ⟨t.kind, false⟩ with _ | ⟨s, join⟩
    · rfl
    · by_cases hs : strength ≤ s
      · simp only [hs, if_true, Option.bind_some, Option.elim_some]
        rfl
      · simp only [hs, if_false, Option.bind_some, Option.elim_none]
        rfl

theorem operand_eq : operand (fuel + 1) = onHead (fun k => (prefixOp? ⟨k, false⟩).map fun op =>
    seq (operand fuel) fun e => check (checkOperand (op e)) done) (seq (primary fuel) (suffixes true fuel)) := by
  funext ts
  cases ts with
  | nil => cases fuel <;> rfl
  | cons t ts =>
    have hkind : prefixOp? t = prefixOp? ⟨t.kind, false⟩ := prefixOp?_kind t.kind t.newLine
    rw [operand, onHead, hkind]
    cases prefixOp? ⟨t.kind, false⟩ <;> rfl

/-- The word at the front chooses. -/
def onWord {α : Type} (choose : String → Option (Reader α)) : Reader α → Reader α :=
  onHead fun k => match k with | .word w => choose w | _ => none

theorem suffixes_eq (calls : Bool) (e : Expr) : suffixes calls (fuel + 1) e =
    onMark "."
      (onWord (fun w => some (suffixes calls fuel (.member e w))) fun ts => complain (.told "expecting field name") ts)
      (onMark "[" (seq (expression fuel) fun k => expecting "]" (suffixes calls fuel (.index e k)))
        (if calls then onMark "(" (seq (items false ")" fuel []) fun args => suffixes calls fuel (.call e args)) (done e)
          else done e)) := by
  funext ts
  rw [suffixes, onMark_apply, onMark_apply]
  by_cases hdot : isMark "." ts = true
  · rw [if_pos hdot, if_pos hdot]
    rcases ts.drop 1 with _ | ⟨⟨k, newLine⟩, rest⟩
    · rfl
    · cases k <;> rfl
  · rw [if_neg hdot, if_neg hdot]
    simp only [seq, expecting_apply]
    cases calls
    · rfl
    · simp only [Bool.true_and, if_true, onMark_apply]
      rfl

theorem items_eq (holes : Bool) (closing : String) (found : List Expr) : items holes closing (fuel + 1) found =
    onMark closing (done found.reverse) ((if holes then onMark "," (items holes closing fuel (.hole :: found)) else id)
      (seq (assignment fuel) fun e => onMark closing (done (e :: found).reverse)
        (expecting "," (items holes closing fuel (e :: found))))) := by
  funext ts
  rw [items, onMark_apply]
  cases holes
  · simp only [Bool.false_and, Bool.false_eq_true, if_false, id_eq, seq, onMark_apply, expecting_apply]
    rfl
  · simp only [Bool.true_and, if_true, seq, onMark_apply, expecting_apply]
    rfl

theorem newObject_eq : newObject (fuel + 1) =
    onMark "." (onWord (fun w => if w = "target" then some (done (Expr.constant .undefined)) else none)
        fun ts => complain (.told "expecting target") ts)
      (seq (primary fuel) fun e => seq (suffixes false fuel e) fun callee =>
        onMark "(" (seq (items false ")" fuel []) fun args => done (.construct callee args))
          (done (.construct callee []))) := by
  have htarget (ts : List Token) :
      onWord (fun w => if w = "target" then some (done (Expr.constant .undefined)) else none)
        (fun ts => complain (.told "expecting target") ts) ts =
          if word? ts = some "target" then .ok (.constant .undefined, ts.drop 1)
          else complain (.told "expecting target") ts := by
    rcases ts with _ | ⟨⟨k, newLine⟩, ts⟩
    · rfl
    · cases k with
      | word w => by_cases hw : w = "target" <;> simp [onWord, onHead, word?, hw, done]
      | _ => rfl
  funext ts
  rw [newObject, onMark_apply, htarget, List.drop_drop]
  simp only [seq, onMark_apply]
  rfl

/-- The complaint about what stands behind `import.`. -/
def metaFault {α : Type} (ts : List Token) : Except SyntaxFault α :=
  if word? ts = some "meta" then told "import.meta only valid in module code" else complain (.told "meta expected") ts

theorem imported_eq : imported (fuel + 1) = onMark "." metaFault
      (expecting "(" (seq (assignment fuel) fun e => expecting ")" (done (.sequence e (.object []))))) := by
  funext ts
  rw [imported, onMark_apply, expecting_apply]
  split
  · rfl
  · refine congrArg (expect "(" ts >>= ·) (funext fun rest => ?_)
    simp only [seq, expecting_apply]
    rfl

/-- What a token at the front of an operand chooses. -/
def primaryAt (fuel : Nat) : TokenKind → Option (Reader Expr)
  | .number x => some (done (.constant (.number x)))
  | .string c => some (done (.constant (.string c)))
  | .mark "(" => some (seq (expression fuel) fun e => expecting ")" (done e))
  | .mark "[" => some (seq (items true "]" fuel []) fun es => done (.array es))
  | .word "null" => some (done (.constant .null))
  | .word "true" => some (done (.constant (.bool true)))
  | .word "false" => some (done (.constant (.bool false)))
  | .word "this" => some (done .this)
  | .word "new" => some (newObject fuel)
  | .word "import" => some (imported fuel)
  | .word w => some (if reserved.contains w then fun ts => reservedFault w ts else done (.name w))
  | _ => none

theorem primary_eq : primary (fuel + 1) = onHead (primaryAt fuel) fun ts => unexpected ts := by
  funext ts
  rcases ts with _ | ⟨⟨k, newLine⟩, ts⟩
  · rfl
  · rw [onHead]
    cases k with
    | mark m =>
      by_cases hopen : m = "("
      · subst hopen
        simp only [primaryAt, Option.elim_some, seq, expecting_apply]
        rfl
      · by_cases hbracket : m = "["
        · subst hbracket
          rfl
        · simp [primary, primaryAt, hopen, hbracket]
    | word w =>
      unfold primary primaryAt
      split <;> simp_all [done]
      split <;> rfl
    | _ => rfl

/-! What is read does not depend on what stands behind it. -/

/-- The readers with some fuel against those with more. -/
structure AllExtend (fuel fuel' : Nat) : Prop where
  expression : Extends (expression fuel) (expression fuel')
  assignment : Extends (assignment fuel) (assignment fuel')
  climb (strength : Nat) : Extends (climb fuel strength) (climb fuel' strength)
  operators (strength : Nat) (e : Expr) : Extends (operators fuel strength e) (operators fuel' strength e)
  operand : Extends (operand fuel) (operand fuel')
  suffixes (calls : Bool) (e : Expr) : Extends (suffixes calls fuel e) (suffixes calls fuel' e)
  items (holes : Bool) (closing : String) (found : List Expr) :
    Extends (items holes closing fuel found) (items holes closing fuel' found)
  newObject : Extends (newObject fuel) (newObject fuel')
  imported : Extends (imported fuel) (imported fuel')
  primary : Extends (primary fuel) (primary fuel')

private theorem AllExtend.zero (fuel' : Nat) : AllExtend 0 fuel' where
  expression := .unexpected
  assignment := .unexpected
  climb _ := .unexpected
  operators _ _ := .unexpected
  operand := .unexpected
  suffixes _ _ := .unexpected
  items _ _ _ := .unexpected
  newObject := .unexpected
  imported := .unexpected
  primary := .unexpected

private theorem reservedFault_fails (w : String) (ts : List Token) (a : Expr) (rest : List Token) :
    reservedFault w ts ≠ .ok (a, rest) := by
  unfold reservedFault
  split
  · unfold functionFault
    split
    · split <;> nofun
    · exact complain_ne_ok _ _ _
  · exact complain_ne_ok _ _ _
  · nofun
  · split
    · nofun
    · split <;> nofun
  · nofun

variable {fuel fuel' : Nat}

private theorem AllExtend.primaryAt (h : AllExtend fuel fuel') (k : TokenKind) :
    Option.Rel Extends (primaryAt fuel k) (primaryAt fuel' k) := by
  unfold Parser.primaryAt
  split
  · exact .some (.done _)
  · exact .some (.done _)
  · exact .some (h.expression.seq fun e => .expecting _ (.done e))
  · exact .some ((h.items _ _ _).seq fun es => .done _)
  · exact .some (.done _)
  · exact .some (.done _)
  · exact .some (.done _)
  · exact .some (.done _)
  · exact .some h.newObject
  · exact .some h.imported
  · refine .some ?_
    split
    · exact .of_fails (reservedFault_fails _)
    · exact .done _
  · exact .none

private theorem AllExtend.succ (h : AllExtend fuel fuel') : AllExtend (fuel + 1) (fuel' + 1) where
  expression := by
    rw [expression_eq, expression_eq]
    exact h.assignment.seq fun e => .onMark _ (h.expression.seq fun f => .done _) (.done e)
  assignment := by
    rw [assignment_eq, assignment_eq]
    exact (h.climb 1).seq fun e => .onMark _ (.check _ fun _ => h.assignment.seq fun v => .done _) (.done e)
  climb strength := by
    rw [climb_eq, climb_eq]
    exact h.operand.seq fun e => h.operators strength e
  operators strength e := by
    rw [operators_eq, operators_eq]
    refine .onHead (fun k => ?_) (.done e)
    rcases binary? ⟨k, false⟩ with _ | ⟨s, join⟩
    · exact .none
    · by_cases hs : strength ≤ s
      · simp only [Option.bind_some, hs, if_true]
        exact .some ((h.climb _).seq fun right => h.operators _ _)
      · simp only [Option.bind_some, hs, if_false]
        exact .none
  operand := by
    rw [operand_eq, operand_eq]
    refine .onHead (fun k => ?_) (h.primary.seq fun e => h.suffixes true e)
    cases prefixOp? ⟨k, false⟩ with
    | none => exact .none
    | some op => exact .some (h.operand.seq fun e => .check _ fun e => .done e)
  suffixes calls e := by
    rw [suffixes_eq, suffixes_eq]
    refine .onMark _ (.onHead (fun k => ?_) (.complain _))
      (.onMark _ (h.expression.seq fun k => .expecting _ (h.suffixes _ _)) ?_)
    · cases k with
      | word w => exact .some (h.suffixes _ _)
      | _ => exact .none
    · cases calls
      · exact .done e
      · exact .onMark _ ((h.items _ _ _).seq fun args => h.suffixes _ _) (.done e)
  items holes closing found := by
    rw [items_eq, items_eq]
    have hnext : Extends
        (seq (Parser.assignment fuel) fun e => onMark closing (done (e :: found).reverse)
          (expecting "," (Parser.items holes closing fuel (e :: found))))
        (seq (Parser.assignment fuel') fun e => onMark closing (done (e :: found).reverse)
          (expecting "," (Parser.items holes closing fuel' (e :: found)))) :=
      h.assignment.seq fun e => .onMark _ (.done _) (.expecting _ (h.items _ _ _))
    cases holes
    · exact .onMark _ (.done _) hnext
    · exact .onMark _ (.done _) (.onMark _ (h.items _ _ _) hnext)
  newObject := by
    rw [newObject_eq, newObject_eq]
    refine .onMark _ (.onHead (fun k => ?_) (.complain _)) (h.primary.seq fun e => (h.suffixes _ _).seq fun callee =>
      .onMark _ ((h.items _ _ _).seq fun args => .done _) (.done _))
    cases k with
    | word w =>
      dsimp only
      split
      · exact .some (.done _)
      · exact .none
    | _ => exact .none
  imported := by
    rw [imported_eq, imported_eq]
    have hmeta (ts : List Token) (a : Expr) (rest : List Token) : metaFault ts ≠ .ok (a, rest) := by
      unfold metaFault
      split
      · nofun
      · exact complain_ne_ok _ _ _
    exact .onMark _ (.of_fails hmeta) (.expecting _ (h.assignment.seq fun e => .expecting _ (.done _)))
  primary := by
    rw [primary_eq, primary_eq]
    exact .onHead h.primaryAt .unexpected

/-- With more fuel the same is read, whatever stands behind it. -/
theorem allExtend (h : fuel ≤ fuel') : AllExtend fuel fuel' := by
  induction fuel generalizing fuel' with
  | zero => exact .zero fuel'
  | succ fuel ih =>
    obtain ⟨fuel', rfl⟩ := Nat.exists_eq_add_one.2 (Nat.lt_of_lt_of_le fuel.succ_pos h)
    exact (ih (Nat.le_of_succ_le_succ h)).succ

/-! Expressions in parentheses are the arguments of a call. -/

/-- No expression begins with a closing parenthesis. -/
private theorem isMark_of_assignment {ts rest : List Token} {e : Expr} (h : assignment fuel ts = .ok (e, rest)) :
    isMark ")" ts = false := by
  rcases ts with _ | ⟨⟨k, newLine⟩, ts⟩
  · rfl
  · by_cases hk : k = .mark ")"
    · subst hk
      rcases fuel with _ | _ | _ | _ | fuel <;> cases h
    · cases k with
      | mark m => simpa [isMark] using hk
      | _ => rfl

/-- An expression and more of them, with commas between them. -/
def joined (e : Expr) : List Expr → Expr
  | [] => e
  | f :: es => .sequence e (joined f es)

/-- What is read in front of a closing parenthesis as one expression, with commas or without, is read as the arguments
of a call. -/
theorem items_of_expression {ts rest : List Token} {e : Expr} {close : Token} (hclose : close.kind = .mark ")")
    (h : expression fuel ts = .ok (e, close :: rest)) :
    ∃ f es, e = joined f es ∧ ∀ found, items false ")" fuel found ts = .ok (found.reverse ++ f :: es, rest) := by
  have hmark : isMark ")" (close :: rest) = true ∧ isMark "," (close :: rest) = false := by
    obtain ⟨k, newLine⟩ := close
    obtain rfl : k = _ := hclose
    exact ⟨rfl, rfl⟩
  -- Behind a comma the rest is an expression again, read with less fuel.
  induction fuel generalizing ts e with
  | zero => exact absurd h (by
      rw [expression]
      unfold unexpected
      split <;> nofun)
  | succ fuel ih =>
    rw [expression_eq, seq] at h
    rcases hfirst : assignment fuel ts with fault | ⟨f, mid⟩
    · rw [hfirst] at h
      cases h
    · have hitems (found : List Expr) : items false ")" (fuel + 1) found ts =
          if isMark ")" mid then .ok ((f :: found).reverse, mid.drop 1)
          else expecting "," (items false ")" fuel (f :: found)) mid := by
        have hstart : seq (assignment fuel) (fun e => onMark ")" (done (e :: found).reverse)
            (expecting "," (items false ")" fuel (e :: found)))) ts =
              onMark ")" (done (f :: found).reverse) (expecting "," (items false ")" fuel (f :: found))) mid := by
          rw [seq, hfirst]
          rfl
        rw [items_eq, onMark_apply, isMark_of_assignment hfirst, if_neg Bool.false_ne_true]
        simp only [Bool.false_eq_true, if_false, id_eq]
        rw [hstart, onMark_apply]
        rfl
      have hmid : onMark "," (seq (expression fuel) fun g => done (.sequence f g)) (done f) mid =
          .ok (e, close :: rest) := by
        rw [hfirst] at h
        exact h
      rw [onMark_apply] at hmid
      split at hmid
      · rename_i hcomma
        have hclosing : isMark ")" mid = false := by
          rcases mid with _ | ⟨⟨k, newLine⟩, mid⟩
          · rfl
          · cases k with
            | mark m =>
              obtain rfl : m = "," := by simpa [isMark] using hcomma
              rfl
            | _ => rfl
        rcases hsecond : expression fuel (mid.drop 1) with fault | ⟨g, rest'⟩
        · rw [seq, hsecond] at hmid
          cases hmid
        · rw [seq, hsecond] at hmid
          obtain ⟨rfl, rfl⟩ := Prod.mk.inj (Except.ok.inj hmid)
          obtain ⟨g', es, rfl, hes⟩ := ih hsecond
          refine ⟨f, g' :: es, rfl, fun found => ?_⟩
          rw [hitems, hclosing, if_neg Bool.false_ne_true, expecting, onMark_apply, if_pos hcomma, hes,
            List.reverse_cons, List.append_assoc, List.singleton_append]
      · obtain ⟨rfl, rfl⟩ := Prod.mk.inj (Except.ok.inj hmid)
        refine ⟨f, [], rfl, fun found => ?_⟩
        rw [hitems, hmark.1, if_pos rfl, List.reverse_cons]
        rfl

end ScriptBridge.Script.Parser
