/-! Sets of code points written as the ascending list of the points where membership changes. -/
namespace ScriptBridge.Text

/-- Membership in the set that begins outside and changes sides at each boundary. -/
def within : List Nat → Nat → Bool
  | [], _ => false
  | [first], n => decide (first ≤ n)
  | first :: last :: rest, n => (decide (first ≤ n) && decide (n < last)) || within rest n

theorem within_eq_false_of_lt {bounds : List Nat} {n : Nat} (h : ∀ b ∈ bounds, n < b) :
    within bounds n = false := by
  fun_induction within bounds n <;> simp_all

end ScriptBridge.Text
