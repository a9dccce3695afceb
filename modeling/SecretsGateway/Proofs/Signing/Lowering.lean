import SecretsGateway.Proofs.Signing.Judgement

/-!
# The lower of two signatures

A nonce first gives a signature whose `s` may be high (`RawSignature.ofNonce?`). Then the lower of `s` and its negative is taken,
and the parity is turned exactly if it is the negative (`RawSignature.lower`, `SigningKey.signDigest_of_rawSignature?`). It does
not matter which one of the two was there first (`RawSignature.lower_negate`).
-/

namespace SecretsGateway

open Secp256k1

/-- A signature before the choice between `s` and its negative. -/
structure RawSignature where
  r : Nat
  s : Nat
  /-- The point of the nonce has an odd second coordinate. -/
  odd : Bool
  /-- The first coordinate of the point of the nonce is not below the order. -/
  wraps : Bool
  deriving DecidableEq

namespace RawSignature

/-- The signature of a number by a secret, with the given nonce. -/
def ofNonce? (z secret k : Nat) : Option RawSignature :=
  match Point.mul k generator with
  | .infinity => none
  | .affine x y =>
    let r := x % order
    let s := inverseMod order k * ((z + r * secret) % order) % order
    if r = 0 ∨ s = 0 then none else some ⟨r, s, y % 2 == 1, order ≤ x⟩

/-- The negative of `s`, which belongs to the other parity. -/
def negate (raw : RawSignature) : RawSignature := ⟨raw.r, order - raw.s, !raw.odd, raw.wraps⟩

/-- The last byte is one for an odd point, and two more if its first coordinate is not below the order. -/
def toSignature (raw : RawSignature) : Signature :=
  ⟨raw.r, raw.s, (if raw.odd then 1 else 0) + (if raw.wraps then 2 else 0)⟩

/-- The lower one of a signature and its negative. -/
def lower (raw : RawSignature) : Signature := if order / 2 < raw.s then raw.negate.toSignature else raw.toSignature

variable {raw : RawSignature} {z secret k : Nat}

private theorem lower_mk (r s x : Nat) (odd : Bool) : lower ⟨r, s, odd, order ≤ x⟩ =
    ⟨r, if decide (order / 2 < s) then order - s else s,
      (if odd != decide (order / 2 < s) then 1 else 0) + (if order ≤ x then 2 else 0)⟩ := by
  unfold lower
  by_cases hhigh : order / 2 < s
  · simp [hhigh, negate, toSignature]
  · simp [hhigh, toSignature]

theorem lower_negate (hlt : raw.s < order) : raw.negate.lower = raw.lower := by
  have horder := order_odd
  have htwice : raw.negate.negate = raw := by
    rw [negate, negate, Nat.sub_sub_self (Nat.le_of_lt hlt), Bool.not_not]
  unfold lower
  by_cases hhigh : order / 2 < raw.s
  · have hlow : ¬ order / 2 < raw.negate.s := by
      change ¬ order / 2 < order - raw.s
      omega
    rw [if_pos hhigh, if_neg hlow]
  · have hlow : order / 2 < raw.negate.s := by
      change order / 2 < order - raw.s
      omega
    rw [if_neg hhigh, if_pos hlow, htwice]

theorem ofNonce?_eq_some (h : ofNonce? z secret k = some raw) : ∃ x y, Point.mul k generator = .affine x y ∧
    let s := inverseMod order k * ((z + x % order * secret) % order) % order
    ¬ (x % order = 0 ∨ s = 0) ∧ raw = ⟨x % order, s, y % 2 == 1, order ≤ x⟩ := by
  unfold ofNonce? at h
  generalize Point.mul k generator = point at h ⊢
  cases point with
  | infinity => cases h
  | affine x y =>
    dsimp only at h
    split at h
    · cases h
    · next hzero => exact ⟨x, y, rfl, hzero, (Option.some.inj h).symm⟩

end RawSignature

namespace SigningKey

variable {key : SigningKey} {digest : Bytes} {raw : RawSignature}

def nonce? (key : SigningKey) (digest : Bytes) : Option Nat :=
  NonceChain.draw nonceTries (.start (Bytes.ofNat 32 key.secret) (Bytes.ofNat 32 (digestNumber digest)))

/-- The signature of a digest, as the nonce gives it. -/
def rawSignature? (key : SigningKey) (digest : Bytes) : Option RawSignature :=
  (key.nonce? digest).bind (RawSignature.ofNonce? (digestNumber digest) key.secret)

theorem signDigest_of_rawSignature? (h : key.rawSignature? digest = some raw) : key.signDigest digest = .ok raw.lower := by
  obtain ⟨k, hnonce, hraw⟩ := Option.bind_eq_some_iff.1 h
  obtain ⟨x, y, hpoint, hzero, rfl⟩ := RawSignature.ofNonce?_eq_some hraw
  rw [RawSignature.lower_mk]
  -- As in `signDigest_bounds`, the nonce and the curve become variables before the definitions are opened.
  delta nonce? at hnonce
  generalize hf : signDigest = f
  delta signDigest at hf
  generalize NonceChain.draw = draw at hf hnonce
  generalize Point.mul = mul at hf hpoint
  generalize inverseMod = inverse at hf hzero ⊢
  subst hf
  simp only [hnonce, hpoint, if_neg hzero]

end SigningKey

end SecretsGateway
