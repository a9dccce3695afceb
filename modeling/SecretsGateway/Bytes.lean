/-!
# Byte strings

A byte string is a list of bytes, most significant first when it stands for a number. `Bytes.ofNat` and
`Bytes.toNat` are the two directions of that reading; `toNat_ofNat` says they agree below `256 ^ width`.
-/

namespace SecretsGateway

/-- A finite string of bytes. -/
abbrev Bytes := List UInt8

namespace Bytes

/-- The number a byte string spells, most significant byte first. -/
def toNat (bs : Bytes) : Nat := bs.foldl (fun n b => n * 256 + b.toNat) 0

/-- The last `width` base-256 digits of `n`, most significant first. -/
def ofNat : (width n : Nat) → Bytes
  | 0, _ => []
  | width + 1, n => ofNat width (n / 256) ++ [UInt8.ofNat n]

@[simp] theorem length_ofNat (width n : Nat) : (ofNat width n).length = width := by
  induction width generalizing n with
  | zero => rfl
  | succ width ih => simp [ofNat, ih]

private theorem toNat_append_singleton (bs : Bytes) (b : UInt8) : toNat (bs ++ [b]) = toNat bs * 256 + b.toNat := by
  simp [toNat, List.foldl_append]

theorem toNat_ofNat (width n : Nat) : toNat (ofNat width n) = n % Nat.pow 256 width := by
  induction width generalizing n with
  | zero => simp [ofNat, toNat, Nat.mod_one]
  | succ width ih =>
    rw [ofNat, toNat_append_singleton, ih]
    have hpow : Nat.pow 256 (width + 1) = 256 * Nat.pow 256 width := Nat.mul_comm _ _
    have hbyte : (UInt8.ofNat n).toNat = n % 256 := UInt8.toNat_ofNat'
    rw [hpow, Nat.mod_mul, hbyte]
    omega

/-- `bs` followed by zero bytes up to `width`; a longer `bs` is left as it is. -/
def padRight (width : Nat) (bs : Bytes) : Bytes := bs ++ List.replicate (width - bs.length) 0

/-- Consecutive blocks of `size` bytes; a shorter rest is dropped, and so is everything if `size` is zero. -/
def blocks (size : Nat) (bs : Bytes) : List Bytes :=
  (List.range (bs.length / size)).map fun i => (bs.drop (i * size)).take size

/-- The zero bytes missing to the next multiple of `size` after `length` bytes. -/
def gap (size length : Nat) : Nat := (size - length % size) % size

end Bytes

end SecretsGateway
