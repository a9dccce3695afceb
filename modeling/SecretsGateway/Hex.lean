import SecretsGateway.Bytes

/-!
# Hexadecimal text

Bytes are written as two lower-case digits each and read back in either case. `Hex.decode?_encode` says that
writing then reading gives the bytes back. A leading mark `0x` is dropped by `Hex.unmarked`.
-/

namespace SecretsGateway.Hex

/-- The lower-case digit of a number below sixteen. -/
def digit (n : Nat) : Char := if n < 10 then Char.ofNat (48 + n) else Char.ofNat (87 + n)

/-- The value of a digit of either case. -/
def value? (c : Char) : Option Nat :=
  if '0' ≤ c ∧ c ≤ '9' then some (c.toNat - 48)
  else if 'a' ≤ c ∧ c ≤ 'f' then some (c.toNat - 87)
  else if 'A' ≤ c ∧ c ≤ 'F' then some (c.toNat - 55)
  else none

/-- The two digits of each byte, high half first. -/
def encode (bs : Bytes) : List Char := bs.flatMap fun b => [digit (b.toNat / 16), digit (b.toNat % 16)]

/-- The bytes spelt by pairs of digits; an odd digit or any other character is refused. -/
def decode? : List Char → Option Bytes
  | [] => some []
  | [_] => none
  | high :: low :: rest => do
    let h ← value? high
    let l ← value? low
    let bs ← decode? rest
    return UInt8.ofNat (h * 16 + l) :: bs

/-- A text less one leading `0x`. -/
def unmarked : List Char → List Char
  | '0' :: 'x' :: rest => rest
  | cs => cs

/-- Bytes as marked text: `0x` and their digits. -/
def marked (bs : Bytes) : String := String.ofList ('0' :: 'x' :: encode bs)

private theorem value?_digit {n : Nat} (h : n < 16) : value? (digit n) = some n := by
  rcases n with _ | _ | _ | _ | _ | _ | _ | _ | _ | _ | _ | _ | _ | _ | _ | _ | n
  all_goals first | decide | omega

@[simp] theorem decode?_encode (bs : Bytes) : decode? (encode bs) = some bs := by
  induction bs with
  | nil => rfl
  | cons b bs ih =>
    have hb := b.toNat_lt
    have hq : UInt8.ofNat (b.toNat / 16 * 16 + b.toNat % 16) = b := by
      rw [Nat.div_add_mod']
      exact UInt8.ofNat_toNat
    change decode? (digit (b.toNat / 16) :: digit (b.toNat % 16) :: encode bs) = some (b :: bs)
    rw [decode?, value?_digit (show b.toNat / 16 < 16 by omega), value?_digit (Nat.mod_lt b.toNat (by decide)), ih]
    exact congrArg (fun x => some (x :: bs)) hq

end SecretsGateway.Hex
