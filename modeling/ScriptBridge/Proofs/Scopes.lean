import ScriptBridge.Proofs.Evaluating

/-! Expressions and their scopes. An expression that mentions neither `this` nor the arguments of a call has the same
value and the same effects at the top of a script as in the body of a function. -/
namespace ScriptBridge.Script

namespace Expr

mutual
/-- Whether an expression mentions neither `this` nor the arguments of a call. -/
def isGlobal : Expr → Bool
  | .this => false
  | .name x => x != "arguments"
  | .constant _ | .hole | .function .. => true
  | .array items => areGlobal items
  | .object members => membersGlobal members
  | .member e _ | .proxy e _ | .not e | .negate e | .typeOf e | .delete e => e.isGlobal
  | .call e args | .construct e args => e.isGlobal && areGlobal args
  | .index a b | .equals _ a b | .isIn a b | .both a b | .either a b | .assign a b | .sequence a b =>
    a.isGlobal && b.isGlobal

def areGlobal : List Expr → Bool
  | [] => true
  | e :: rest => e.isGlobal && areGlobal rest

def membersGlobal : List (String × Expr) → Bool
  | [] => true
  | (_, e) :: rest => e.isGlobal && membersGlobal rest
end

end Expr

namespace Scope

variable {s s' : Scope} {x : String}

/-- Without names of its own a scope looks every name but that of its arguments up in the global object. -/
theorem lookup?_global (hs : s.names = []) (hx : x ≠ "arguments") : s.lookup? x = Run.global? x := by
  rw [lookup?, find?_of_names_nil hs]
  cases s.arguments with
  | none => rfl
  | some args => exact if_neg hx

theorem lookup_global (hs : s.names = []) (hs' : s'.names = []) (hx : x ≠ "arguments") : s.lookup x = s'.lookup x := by
  rw [lookup, lookup, lookup?_global hs hx, lookup?_global hs' hx]

theorem update_global (hs : s.names = []) (hs' : s'.names = []) (x : String) : s.update x = s'.update x := by
  funext known v
  rw [update, update, find?_of_names_nil hs, find?_of_names_nil hs']

end Scope

namespace Expr

variable {s s' : Scope}

private theorem evaluate_call {callee : Expr} {args : List Expr} (hmember : ∀ base x, callee = .member base x → False)
    (hindex : ∀ base key, callee = .index base key → False) (hcallee : callee.evaluate s = callee.evaluate s')
    (hargs : ∀ found, evaluateAll s found args = evaluateAll s' found args) :
    (call callee args).evaluate s = (call callee args).evaluate s' := by
  rw [evaluate, evaluate, hcallee, hargs] <;> assumption

private theorem evaluate_typeOf {e : Expr} (hname : ∀ x, e = .name x → False) (he : e.evaluate s = e.evaluate s') :
    (typeOf e).evaluate s = (typeOf e).evaluate s' := by
  rw [evaluate, evaluate, he] <;> assumption

private theorem evaluate_delete {e : Expr} (hmember : ∀ base x, e = .member base x → False)
    (hindex : ∀ base key, e = .index base key → False) (he : e.evaluate s = e.evaluate s') :
    (delete e).evaluate s = (delete e).evaluate s' := by
  rw [evaluate, evaluate, he] <;> assumption

private theorem evaluateItems_cons {e : Expr} {rest : List Expr} (he : e.evaluate s = e.evaluate s')
    (hhole : e = .hole → False) (hrest : ∀ i found, evaluateItems s i found rest = evaluateItems s' i found rest)
    (i : Nat) (found : Std.TreeMap Nat Property) :
    evaluateItems s i found (e :: rest) = evaluateItems s' i found (e :: rest) := by
  rw [evaluateItems, evaluateItems, he]
  · simp only [hrest]
  all_goals exact hhole

private theorem isGlobal_name {x : String} (h : (name x).isGlobal = true) : x ≠ "arguments" := by
  simpa [isGlobal] using h

mutual
/-- In scopes without names of their own such an expression has one meaning. -/
theorem evaluate_global (hs : s.names = []) (hs' : s'.names = []) : (e : Expr) → e.isGlobal = true →
    e.evaluate s = e.evaluate s'
  | .constant _, _ | .hole, _ | .function .., _ => by rw [evaluate, evaluate]
  | .this, h => by cases h
  | .name x, h => by rw [evaluate, evaluate, Scope.lookup_global hs hs' (isGlobal_name h)]
  | .array items, h => by rw [evaluate, evaluate, evaluateItems_global hs hs' items h]
  | .object members, h => by simp only [evaluate, evaluateMembers_global hs hs' members h]
  | .member base x, h => by rw [evaluate, evaluate, evaluate_global hs hs' base h]
  | .index a b, h => by
    obtain ⟨ha, hb⟩ := Bool.and_eq_true_iff.1 h
    rw [evaluate, evaluate, evaluate_global hs hs' a ha, evaluate_global hs hs' b hb]
  | .call callee args, h => by
    obtain ⟨hcallee, hargs⟩ := Bool.and_eq_true_iff.1 h
    have hall := evaluateAll_global hs hs' args hargs
    cases callee with
    | member base x => simp only [evaluate, evaluate_global hs hs' base hcallee, hall]
    | index base key =>
      obtain ⟨hbase, hkey⟩ := Bool.and_eq_true_iff.1 hcallee
      simp only [evaluate, evaluate_global hs hs' base hbase, evaluate_global hs hs' key hkey, hall]
    | _ => exact evaluate_call (by simp) (by simp) (evaluate_global hs hs' _ hcallee) hall
  | .construct callee args, h => by
    obtain ⟨hcallee, hargs⟩ := Bool.and_eq_true_iff.1 h
    rw [evaluate, evaluate, evaluate_global hs hs' callee hcallee, evaluateAll_global hs hs' args hargs]
  | .proxy target trap, h => by
    have hproxy : s.lookup "Proxy" = s'.lookup "Proxy" := Scope.lookup_global hs hs' (by decide)
    rw [evaluate, evaluate, hproxy, evaluate_global hs hs' target h]
  | .not e, h => by rw [evaluate, evaluate, evaluate_global hs hs' e h]
  | .negate e, h => by rw [evaluate, evaluate, evaluate_global hs hs' e h]
  | .typeOf e, h => by
    cases e with
    | name x =>
      have hx := isGlobal_name h
      rw [evaluate, evaluate, Scope.lookup?_global hs hx, Scope.lookup?_global hs' hx]
    | _ => exact evaluate_typeOf (by simp) (evaluate_global hs hs' _ h)
  | .delete e, h => by
    cases e with
    | member base x => rw [evaluate, evaluate, evaluate_global hs hs' base h]
    | index base key =>
      obtain ⟨hbase, hkey⟩ := Bool.and_eq_true_iff.1 h
      simp only [evaluate, evaluate_global hs hs' base hbase, evaluate_global hs hs' key hkey]
    | _ => exact evaluate_delete (by simp) (by simp) (evaluate_global hs hs' _ h)
  | .equals expected a b, h => by
    obtain ⟨ha, hb⟩ := Bool.and_eq_true_iff.1 h
    rw [evaluate, evaluate, evaluate_global hs hs' a ha, evaluate_global hs hs' b hb]
  | .isIn key base, h => by
    obtain ⟨hkey, hbase⟩ := Bool.and_eq_true_iff.1 h
    rw [evaluate, evaluate, evaluate_global hs hs' key hkey, evaluate_global hs hs' base hbase]
  | .both a b, h => by
    obtain ⟨ha, hb⟩ := Bool.and_eq_true_iff.1 h
    rw [evaluate, evaluate, evaluate_global hs hs' a ha, evaluate_global hs hs' b hb]
  | .either a b, h => by
    obtain ⟨ha, hb⟩ := Bool.and_eq_true_iff.1 h
    rw [evaluate, evaluate, evaluate_global hs hs' a ha, evaluate_global hs hs' b hb]
  | .assign target e, h => by
    obtain ⟨htarget, he⟩ := Bool.and_eq_true_iff.1 h
    have hvalue := evaluate_global hs hs' e he
    cases target with
    | name x =>
      have hx := isGlobal_name htarget
      rw [evaluate, evaluate, Scope.lookup?_global hs hx, Scope.lookup?_global hs' hx, hvalue,
        Scope.update_global hs hs']
    | member base x => rw [evaluate, evaluate, evaluate_global hs hs' base htarget, hvalue]
    | index base key =>
      obtain ⟨hbase, hkey⟩ := Bool.and_eq_true_iff.1 htarget
      rw [evaluate, evaluate, evaluate_global hs hs' base hbase, evaluate_global hs hs' key hkey, hvalue]
    | _ => rw [evaluate, evaluate, hvalue] <;> simp
  | .sequence a b, h => by
    obtain ⟨ha, hb⟩ := Bool.and_eq_true_iff.1 h
    rw [evaluate, evaluate, evaluate_global hs hs' a ha, evaluate_global hs hs' b hb]

theorem evaluateAll_global (hs : s.names = []) (hs' : s'.names = []) : (es : List Expr) → areGlobal es = true →
    ∀ found, evaluateAll s found es = evaluateAll s' found es
  | [], _, _ => by rw [evaluateAll, evaluateAll]
  | e :: rest, h, found => by
    obtain ⟨he, hrest⟩ := Bool.and_eq_true_iff.1 h
    simp only [evaluateAll, evaluate_global hs hs' e he, evaluateAll_global hs hs' rest hrest]

theorem evaluateItems_global (hs : s.names = []) (hs' : s'.names = []) : (es : List Expr) → areGlobal es = true →
    ∀ i found, evaluateItems s i found es = evaluateItems s' i found es
  | [], _, _, _ => by rw [evaluateItems, evaluateItems]
  | e :: rest, h, i, found => by
    obtain ⟨he, hrest⟩ := Bool.and_eq_true_iff.1 h
    have hmore := evaluateItems_global hs hs' rest hrest
    cases e with
    | hole => rw [evaluateItems, evaluateItems, hmore]
    | _ => exact evaluateItems_cons (evaluate_global hs hs' _ he) (by simp) hmore i found

theorem evaluateMembers_global (hs : s.names = []) (hs' : s'.names = []) : (members : List (String × Expr)) →
    membersGlobal members = true → ∀ o, evaluateMembers s o members = evaluateMembers s' o members
  | [], _, _ => by rw [evaluateMembers, evaluateMembers]
  | (_, e) :: rest, h, o => by
    obtain ⟨he, hrest⟩ := Bool.and_eq_true_iff.1 h
    simp only [evaluateMembers, evaluate_global hs hs' e he, evaluateMembers_global hs hs' rest hrest]
end

end Expr
end ScriptBridge.Script
