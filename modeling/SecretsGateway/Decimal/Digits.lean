import SecretsGateway.Bytes

/-!
# Decimal digits

Natural numbers as decimal digits, most significant first. `value_digits` says that the digits spell the number.
-/

namespace SecretsGateway.Decimal

/-- The character of a digit, as a byte. -/
def digit (n : Nat) : UInt8 := UInt8.ofNat (48 + n)

/-- The byte is one of the ten digits. -/
def isDigit (b : UInt8) : Bool := 48 ≤ b && b ≤ 57

def digitValue (b : UInt8) : Nat := b.toNat - 48

/-- The digits of a number; zero has one digit. -/
def digits (n : Nat) : Bytes := if n < 10 then [digit n] else digits (n / 10) ++ [digit (n % 10)]

/-- The number that digits spell, read after `start`. -/
def value (start : Nat) (ds : Bytes) : Nat := ds.foldl (fun n d => n * 10 + digitValue d) start

theorem isDigit_digit {n : Nat} (h : n < 10) : isDigit (digit n) = true := by
  rcases n with _ | _ | _ | _ | _ | _ | _ | _ | _ | _ | n
  all_goals first | decide | omega

theorem digitValue_digit {n : Nat} (h : n < 10) : digitValue (digit n) = n := by
  rcases n with _ | _ | _ | _ | _ | _ | _ | _ | _ | _ | n
  all_goals first | decide | omega

theorem value_digits (n : Nat) : value 0 (digits n) = n := by
  induction n using digits.induct with
  | case1 n h => rw [digits, if_pos h]; simp [value, digitValue_digit h]
  | case2 n h ih =>
    rw [digits, if_neg h]
    simp only [value, List.foldl_append, List.foldl_cons, List.foldl_nil] at ih ⊢
    rw [ih, digitValue_digit (Nat.mod_lt n (by decide))]
    omega

theorem all_isDigit_digits (n : Nat) : (digits n).all isDigit = true := by
  induction n using digits.induct with
  | case1 n h => rw [digits, if_pos h]; simp [isDigit_digit h]
  | case2 n h ih => rw [digits, if_neg h]; simp [ih, isDigit_digit (Nat.mod_lt n (by decide : 0 < 10))]

/-- A number below zero has a sign in front of its digits. -/
def ofInt (i : Int) : Bytes := if i < 0 then 45 :: digits i.natAbs else digits i.natAbs

end SecretsGateway.Decimal
