import ScriptBridge.Proofs.Evaluating

/-! Root expressions. A dotted path is read as a chain of members, if it is read at all, and reading its value leaves
everything that was in the heap as it was. -/
namespace ScriptBridge

/-- A path is its first name, and the other ones with dots in front of them. -/
theorem eq_of_splitAt {c : Char} {text part : List Char} {parts : List (List Char)} (h : splitAt c text = part :: parts) :
    text = part ++ parts.flatMap (c :: ·) := by
  induction text generalizing part parts with
  | nil =>
    obtain ⟨rfl, rfl⟩ : [] = part ∧ [] = parts := by simpa [splitAt] using h
    rfl
  | cons d text ih =>
    rw [splitAt] at h
    obtain ⟨first, others, hrest⟩ : ∃ first others, splitAt c text = first :: others := by
      cases text with
      | nil => exact ⟨_, _, rfl⟩
      | cons e text =>
        rw [splitAt]
        split
        · exact ⟨_, _, rfl⟩
        · split <;> exact ⟨_, _, rfl⟩
    rw [ih hrest]
    rw [hrest] at h
    split at h
    · rename_i hd
      obtain ⟨rfl, rfl⟩ : [] = part ∧ first :: others = parts := by simpa using h
      simp [hd]
    · obtain ⟨rfl, rfl⟩ : d :: first = part ∧ others = parts := by simpa using h
      rfl

/-- The names of a dotted path. -/
theorem names_of_isDottedPath {text : List Char} (htext : isDottedPath text = true) :
    ∃ (x : List Char) (xs : List (List Char)), text = x ++ xs.flatMap ('.' :: ·) ∧ isIdentifier x = true ∧ ∀ y ∈ xs, isIdentifier y = true := by
  rw [isDottedPath, List.all_eq_true] at htext
  obtain ⟨x, xs, hsplit⟩ : ∃ x xs, splitAt '.' text = x :: xs := by
    cases hsplit : splitAt '.' text with
    | cons x xs => exact ⟨x, xs, rfl⟩
    | nil =>
      cases text with
      | nil => cases hsplit
      | cons c text =>
        rw [splitAt] at hsplit
        split at hsplit
        · cases hsplit
        · split at hsplit <;> cases hsplit
  rw [hsplit] at htext
  exact ⟨x, xs, eq_of_splitAt hsplit, htext x List.mem_cons_self, fun y hy => htext y (List.mem_cons_of_mem x hy)⟩

namespace Script

open Token (Scans scans_word scans_mark scans_point plain)

/-- Expressions that read properties one after the other, beginning with a name or a constant. -/
inductive Expr.IsPath : Expr → Prop
  | name (x : String) : IsPath (.name x)
  | this : IsPath .this
  | constant (v : Value) : IsPath (.constant v)
  | member {e : Expr} (he : IsPath e) (x : String) : IsPath (.member e x)

/-- The tokens of names with dots in front of them. -/
def dotted : List (List Char) → List TokenKind
  | [] => []
  | x :: xs => .mark "." :: .word (String.ofList x) :: dotted xs

private theorem head_after_name (xs : List (List Char)) (rest : List Char) :
    ∀ c ∈ (xs.flatMap ('.' :: ·) ++ ')' :: rest).head?, isWordPart c = false := by
  intro c hc
  cases xs with
  | nil =>
    obtain rfl : ')' = c := by simpa using hc
    decide +kernel
  | cons y ys =>
    obtain rfl : '.' = c := by simpa using hc
    decide +kernel

private theorem scans_dotted {xs : List (List Char)} (hxs : ∀ x ∈ xs, isIdentifier x = true) (rest : List Char) :
    Scans (xs.flatMap ('.' :: ·)) (dotted xs) (')' :: rest) := by
  induction xs with
  | nil => exact .nil _
  | cons x xs ih =>
    have hx := hxs x List.mem_cons_self
    have hmore := ih fun y hy => hxs y (List.mem_cons_of_mem x hy)
    have hhead := head_after_name xs rest
    have hdigit (text : List Char) : (x ++ text).head?.any Char.isDigit = false := by
      cases x with
      | nil => cases hx
      | cons c x =>
        simp only [isIdentifier, Bool.and_eq_true] at hx
        by_contra hdigit
        have hc : c.isDigit = true := by simpa using hdigit
        have hstart := isWordStart_digit hc
        simp [isWordStart, hx.1] at hstart
    have hword := (scans_word hx hhead).append hmore
    have hall : Scans (['.'] ++ (x ++ xs.flatMap ('.' :: ·))) _ (')' :: rest) := .append (by
      rw [List.append_assoc]
      exact scans_point (hdigit _)) hword
    exact hall

/-- The tokens of a path in parentheses. -/
theorem scan_path {x : List Char} {xs : List (List Char)} (hx : isIdentifier x = true)
    (hxs : ∀ y ∈ xs, isIdentifier y = true) : Token.scan ('(' :: (x ++ xs.flatMap ('.' :: ·)) ++ [')']) =
      plain (.mark "(") :: plain (.word (String.ofList x)) :: ((dotted xs).map plain ++ [plain (.mark ")")]) := by
  have hhead : ∀ c ∈ (xs.flatMap ('.' :: ·) ++ [')']).head?, isWordPart c = false := head_after_name xs []
  have hword := (scans_word hx (by simpa using hhead)).append ((scans_dotted hxs []).append (scans_mark (by decide) []))
  have hall := (scans_mark (c := '(') (by decide) _).append hword
  simpa using hall.scan

namespace Parser

/-- The front of some tokens is read as a path, if it is read at all, and the rest is left. -/
def ReadsPath (r : Except SyntaxFault (Expr × List Token)) (rest : List Token) : Prop :=
  ∀ e rest', r = .ok (e, rest') → e.IsPath ∧ rest' = rest

namespace ReadsPath

variable {r : Except SyntaxFault (Expr × List Token)} {rest rest' : List Token}
  {f : Expr × List Token → Except SyntaxFault (Expr × List Token)}

theorem error {f : SyntaxFault} : ReadsPath (.error f) rest := nofun

theorem ok {e : Expr} (he : e.IsPath) : ReadsPath (.ok (e, rest)) rest := by
  rintro _ _ ⟨⟩
  exact ⟨he, rfl⟩

theorem bind (hr : ReadsPath r rest) (hf : ∀ e, e.IsPath → ReadsPath (f (e, rest)) rest') : ReadsPath (r >>= f) rest' := by
  rcases r with fault | ⟨e, ts⟩
  · exact error
  · obtain ⟨he, rfl⟩ := hr e ts rfl
    exact hf e he

end ReadsPath

variable {ts : List Token}

private theorem readsPath_suffixes (calls : Bool) (xs : List (List Char)) (ts : List Token) {e : Expr} (he : e.IsPath)
    (fuel : Nat) : ReadsPath (suffixes calls fuel e ((dotted xs).map plain ++ plain (.mark ")") :: ts))
      (plain (.mark ")") :: ts) := by
  induction fuel generalizing xs e with
  | zero => cases xs <;> exact .error
  | succ fuel ih =>
    cases xs with
    | nil =>
      rw [suffixes]
      cases calls <;> exact .ok he
    | cons x xs => exact ih xs (he.member _)

/-- What an operand is read as, that is what the whole expression is. -/
private theorem readsPath_expression (hoperand : ∀ fuel, ReadsPath (operand fuel ts) (plain (.mark ")") :: rest))
    (fuel : Nat) : ReadsPath (expression fuel ts) (plain (.mark ")") :: rest) := by
  have hunexpected (ts rest' : List Token) : ReadsPath (unexpected ts) rest' := by
    unfold unexpected
    split <;> exact .error
  have hoperators (fuel : Nat) {e : Expr} (he : e.IsPath) :
      ReadsPath (operators fuel 1 e (plain (.mark ")") :: rest)) (plain (.mark ")") :: rest) := by
    cases fuel with
    | zero => exact hunexpected _ _
    | succ fuel => exact .ok he
  have hclimb (fuel : Nat) : ReadsPath (climb fuel 1 ts) (plain (.mark ")") :: rest) := by
    cases fuel with
    | zero => exact hunexpected _ _
    | succ fuel => exact (hoperand fuel).bind fun e he => hoperators fuel he
  have hassignment (fuel : Nat) : ReadsPath (assignment fuel ts) (plain (.mark ")") :: rest) := by
    cases fuel with
    | zero => exact hunexpected _ _
    | succ fuel => exact (hclimb fuel).bind fun e he => .ok he
  cases fuel with
  | zero => exact hunexpected _ _
  | succ fuel => exact (hassignment fuel).bind fun e he => .ok he

private theorem complain_error {α : Type} (f : SyntaxFault) (ts : List Token) :
    ∃ f', (complain f ts : Except SyntaxFault α) = .error f' := by
  unfold complain
  split <;> exact ⟨_, rfl⟩

private theorem unexpected_error {α : Type} (ts : List Token) :
    ∃ f, (unexpected ts : Except SyntaxFault α) = .error f := by
  unfold unexpected
  split <;> exact ⟨_, rfl⟩

/-- What may stand behind the first name of a path in parentheses. -/
private def after (xs : List (List Char)) (ts : List Token) : List Token :=
  (dotted xs).map plain ++ plain (.mark ")") :: ts

private theorem after_cases (xs : List (List Char)) (ts : List Token) : ∃ m rest, after xs ts = plain (.mark m) :: rest ∧
    (m = "." ∨ m = ")") := by
  cases xs with
  | nil => exact ⟨_, _, rfl, .inr rfl⟩
  | cons x xs => exact ⟨_, _, rfl, .inl rfl⟩

private theorem primary_after (xs : List (List Char)) (ts : List Token) (fuel : Nat) :
    ∃ f, primary fuel (after xs ts) = .error f := by
  obtain ⟨m, rest, hafter, rfl | rfl⟩ := after_cases xs ts <;> rw [hafter] <;> cases fuel <;> exact ⟨_, rfl⟩

private theorem operand_after (xs : List (List Char)) (ts : List Token) (fuel : Nat) :
    ∃ f, operand fuel (after xs ts) = .error f := by
  cases fuel with
  | zero => exact unexpected_error _
  | succ fuel =>
    obtain ⟨f, hprimary⟩ := primary_after xs ts fuel
    have hoperand {m : String} (hm : m = "." ∨ m = ")") (rest : List Token) :
        operand (fuel + 1) (plain (.mark m) :: rest) =
          primary fuel (plain (.mark m) :: rest) >>= fun r => suffixes true fuel r.1 r.2 := by
      rcases hm with rfl | rfl <;> rfl
    obtain ⟨m, rest, hafter, hm⟩ := after_cases xs ts
    rw [hafter] at hprimary ⊢
    exact ⟨f, by rw [hoperand hm, hprimary]; rfl⟩

private theorem reservedFault_after (w : String) (xs : List (List Char)) (ts : List Token) :
    ∃ f, (reservedFault w (after xs ts) : Except SyntaxFault (Expr × List Token)) = .error f := by
  obtain ⟨m, rest, hafter, rfl | rfl⟩ := after_cases xs ts <;> rw [hafter] <;> unfold reservedFault <;> split <;>
    exact ⟨_, rfl⟩

private theorem newObject_after (xs : List (List Char)) (ts : List Token) (fuel : Nat) :
    (∃ f, newObject fuel (after xs ts) = .error f) ∨
      ∃ ys, newObject fuel (after xs ts) = .ok (.constant .undefined, after ys ts) := by
  cases fuel with
  | zero => exact .inl (unexpected_error _)
  | succ fuel =>
    cases xs with
    | nil =>
      obtain ⟨f, hprimary⟩ := primary_after [] ts fuel
      have hmark : isMark "." (after [] ts) = false := rfl
      refine .inl ⟨f, ?_⟩
      rw [newObject, hmark, if_neg Bool.false_ne_true, hprimary]
      rfl
    | cons x xs =>
      have hmark : isMark "." (after (x :: xs) ts) = true := rfl
      rw [newObject, hmark, if_pos rfl]
      split
      · exact .inr ⟨xs, rfl⟩
      · exact .inl (complain_error _ _)

private theorem imported_after (xs : List (List Char)) (ts : List Token) (fuel : Nat) :
    ∃ f, imported fuel (after xs ts) = .error f := by
  cases fuel with
  | zero => exact unexpected_error _
  | succ fuel =>
    cases xs with
    | nil => exact ⟨_, rfl⟩
    | cons x xs =>
      have hmark : isMark "." (after (x :: xs) ts) = true := rfl
      rw [imported, hmark, if_pos rfl]
      split
      · exact ⟨_, rfl⟩
      · exact complain_error _ _

private theorem readsPath_of_error {r : Except SyntaxFault (Expr × List Token)}
    {g : Expr × List Token → Except SyntaxFault (Expr × List Token)} (hr : ∃ f, r = .error f) :
    ReadsPath (r >>= g) rest := by
  obtain ⟨f, rfl⟩ := hr
  exact .error

private theorem readsPath_operand (w : String) (xs : List (List Char)) (ts : List Token) (fuel : Nat) :
    ReadsPath (operand fuel (plain (.word w) :: after xs ts)) (plain (.mark ")") :: ts) := by
  cases fuel with
  | zero => exact .error
  | succ fuel =>
    rw [operand]
    split
    · exact readsPath_of_error (operand_after xs ts fuel)
    · cases fuel with
      | zero => exact .error
      | succ fuel =>
        have hpath {e : Expr} (he : e.IsPath) : ReadsPath (suffixes true (fuel + 1) e (after xs ts)) _ :=
          readsPath_suffixes true xs ts he _
        unfold primary plain
        split <;> rename_i heq <;> try cases heq
        case h_5 => exact hpath (.constant _)
        case h_6 => exact hpath (.constant _)
        case h_7 => exact hpath (.constant _)
        case h_8 => exact hpath .this
        case h_9 =>
          rcases newObject_after xs ts fuel with hfault | ⟨ys, hnew⟩
          · exact readsPath_of_error hfault
          · rw [hnew]
            exact readsPath_suffixes true ys ts (.constant _) _
        case h_10 => exact readsPath_of_error (imported_after xs ts fuel)
        case h_11 =>
          split
          · exact readsPath_of_error (reservedFault_after w xs ts)
          · exact hpath (.name w)
        case h_12 => exact (heq _ _ _ rfl).elim

/-- A dotted path in parentheses is read as a path, if it is read at all. -/
theorem isPath_of_expression? {path : List Char} {e : Expr} (hpath : isDottedPath path = true)
    (he : expression? ('(' :: path ++ [')']) = .ok e) : e.IsPath := by
  obtain ⟨x, xs, rfl, hx, hxs⟩ := names_of_isDottedPath hpath
  have hscan : Token.scan ('(' :: (x ++ xs.flatMap ('.' :: ·)) ++ [')']) =
      plain (.mark "(") :: plain (.word (String.ofList x)) :: after xs [] := scan_path hx hxs
  have hinner (fuel : Nat) : ReadsPath (expression fuel (plain (.word (String.ofList x)) :: after xs [plain (.mark ")")]))
      [plain (.mark ")"), plain (.mark ")")] := readsPath_expression (readsPath_operand _ xs _) fuel
  have houter (fuel : Nat) : ReadsPath (expression fuel
      (plain (.mark "(") :: plain (.word (String.ofList x)) :: after xs [plain (.mark ")")])) [plain (.mark ")")] := by
    refine readsPath_expression (fun fuel => ?_) fuel
    cases fuel with
    | zero => exact .error
    | succ fuel =>
      have hprimary : ReadsPath (primary fuel
          (plain (.mark "(") :: plain (.word (String.ofList x)) :: after xs [plain (.mark ")")])) [plain (.mark ")")] := by
        cases fuel with
        | zero => exact .error
        | succ fuel => exact (hinner fuel).bind fun e he => .ok he
      exact hprimary.bind fun e he => readsPath_suffixes true [] [] he fuel
  have htokens : Token.scan ('(' :: (x ++ xs.flatMap ('.' :: ·)) ++ [')']) ++ [⟨.mark ")", false⟩] =
      plain (.mark "(") :: plain (.word (String.ofList x)) :: after xs [plain (.mark ")")] := by
    rw [hscan]
    simp [after, plain]
  unfold expression? at he
  simp only [htokens] at he
  split at he
  · cases he
  · generalize hread : expression (fuelFor (plain (.mark "(") :: plain (.word (String.ofList x)) ::
      after xs [plain (.mark ")")])) _ = r at he
    rcases r with fault | ⟨e', rest⟩
    · cases he
    · obtain ⟨he', rfl⟩ := houter _ e' rest hread
      obtain rfl : e' = e := Except.ok.inj he
      exact he'

end Parser

/-! The value of a path. Only the arguments of the call that the path stands in become a new object. -/

variable {h : Heap} {k : Key}

private theorem adds_bind {α β : Type} {r : Run α} {f : α → Run β} (hr : h.Adds k (outcome r h).2)
    (hf : ∀ x h', h.Adds k h' → h'.Adds k (outcome (f x) h').2) : h.Adds k (outcome (r >>= f) h).2 := by
  rw [outcome_bind]
  rcases hresult : outcome r h with ⟨t | x, h'⟩
  · rw [hresult] at hr
    exact hr
  · rw [hresult] at hr
    exact hr.trans (hf x h' hr)

private theorem Run.adds_read (v : Value) (l : Key) (h : Heap) : h.Adds k (outcome (read v l) h).2 := by
  have hread : (outcome (read v l) h).2 = h := by
    cases v with
    | string c =>
      cases l with
      | index n =>
        rw [read]
        split <;> rfl
      | _ =>
        rw [read]
        · split <;> rfl
        · exact nofun
    | _ => rfl
  rw [hread]
  exact .refl k h

private theorem Scope.adds_lookup (hk : k ≠ .length) (hname : ∃ y, k = .name y) (s : Scope) (x : String) (h : Heap) :
    h.Adds k (outcome (s.lookup x) h).2 := by
  have hglobal : h.Adds k (outcome (Run.global? x) h).2 := .refl k h
  have hfound : h.Adds k (outcome (s.lookup? x) h).2 := by
    unfold lookup?
    split
    · exact .refl k h
    · split
      · split
        · refine adds_bind (.alloc hk h rfl ?_) fun _ h' _ => .refl k h'
          obtain ⟨y, rfl⟩ := hname
          simp [Object.property?, Ne.symm hk]
        · exact hglobal
      · exact hglobal
  refine adds_bind hfound fun v h' _ => ?_
  cases v <;> exact .refl k h'

theorem Expr.IsPath.adds {e : Expr} (he : e.IsPath) (hk : k ≠ .length) (hname : ∃ y, k = .name y) (s : Scope)
    (h : Heap) : h.Adds k (outcome (e.evaluate s) h).2 := by
  induction he with
  | name x =>
    rw [evaluate]
    exact s.adds_lookup hk hname x h
  | this =>
    rw [evaluate]
    exact .refl k h
  | constant v =>
    rw [evaluate]
    exact .refl k h
  | member he x ih =>
    rw [evaluate]
    exact adds_bind ih fun v h' _ => Run.adds_read v _ h'

end Script
end ScriptBridge
