/-! Decimal numerals of natural numbers and their values. -/
namespace ScriptBridge.Text

/-- The digits of a number, most significant first and without leading zeros. -/
def decimal (n : Nat) : List Char :=
  if n < 10 then [Nat.digitChar n] else decimal (n / 10) ++ [Nat.digitChar (n % 10)]
termination_by n
decreasing_by omega

def digitValue (c : Char) : Nat := c.toNat - '0'.toNat

def numeralFrom (acc : Nat) (ds : List Char) : Nat :=
  ds.foldl (fun n c => 10 * n + digitValue c) acc

/-- The value of a run of digits; leading zeros count nothing. -/
def numeral (ds : List Char) : Nat := numeralFrom 0 ds

def decimalInt (n : Int) : List Char :=
  if n < 0 then '-' :: decimal n.natAbs else decimal n.natAbs

private theorem digitChar_cases {n : Nat} (h : n < 10) :
    digitValue (Nat.digitChar n) = n ∧ (Nat.digitChar n).isDigit = true := by
  have : ∀ m : Fin 10, digitValue (Nat.digitChar m) = m ∧ (Nat.digitChar m).isDigit = true := by
    decide
  exact this ⟨n, h⟩

theorem numeral_decimal (n : Nat) : numeral (decimal n) = n := by
  fun_induction decimal n with
  | case1 n h => simpa [numeral, numeralFrom] using (digitChar_cases h).1
  | case2 n h ih =>
    have hd := (digitChar_cases (Nat.mod_lt n (by decide : 0 < 10))).1
    simp only [numeral, numeralFrom, List.foldl_append, List.foldl_cons, List.foldl_nil] at ih ⊢
    omega

theorem isDigit_of_mem_decimal {n : Nat} {c : Char} (h : c ∈ decimal n) : c.isDigit = true := by
  fun_induction decimal n with
  | case1 n hn => simp_all [(digitChar_cases hn).2]
  | case2 n hn ih =>
    rcases List.mem_append.1 h with h | h
    · exact ih h
    · simp_all [(digitChar_cases (Nat.mod_lt n (by decide : 0 < 10))).2]

theorem decimal_ne_nil (n : Nat) : decimal n ≠ [] := by
  rw [decimal]; split <;> simp

theorem decimal_injective {m n : Nat} (h : decimal m = decimal n) : m = n := by
  rw [← numeral_decimal m, h, numeral_decimal]

end ScriptBridge.Text
