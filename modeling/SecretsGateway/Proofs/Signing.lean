import SecretsGateway.Proofs.Crypto.Keccak
import SecretsGateway.Signing

/-!
# Signing and recovering

A signature that `SigningKey.sign` makes has its parts in their ranges, and the lower of the two values of `s`
(`SigningKey.signDigest_bounds`). So `recover` gets as far as the curve with it, and finds the signer if recovering on the
curve does (`SigningKey.Recovers`, `recover_of_sign`).
-/

namespace SecretsGateway

open Secp256k1

theorem Secp256k1.order_odd : order = 2 * (order / 2) + 1 := by decide

namespace SigningKey

variable {key : SigningKey} {digest message : Bytes} {sig : Signature}

/-- The lower of a value and its negative is positive and at most half of the order. -/
private theorem lower_bounds {s : Nat} (hs : s < order) (hpos : s ≠ 0) :
    0 < (if decide (order / 2 < s) then order - s else s) ∧
      (if decide (order / 2 < s) then order - s else s) ≤ order / 2 := by
  have horder := order_odd
  generalize order / 2 = half at horder ⊢
  by_cases hhigh : half < s
  · rw [decide_eq_true hhigh, if_pos rfl]
    omega
  · rw [decide_eq_false hhigh, if_neg Bool.false_ne_true]
    omega

/-- The parts of a signature are positive and below the order, and `s` is the lower of its two values. -/
theorem signDigest_bounds (h : key.signDigest digest = .ok sig) :
    0 < sig.r ∧ sig.r < order ∧ 0 < sig.s ∧ sig.s ≤ order / 2 := by
  -- The nonce and the curve become variables before the definition is opened, so that nothing evaluates them.
  generalize hf : signDigest = f at h
  delta signDigest at hf
  generalize NonceChain.draw = draw at hf
  generalize Point.mul = mul at hf
  generalize inverseMod = inverse at hf
  subst hf
  simp only [] at h
  split at h
  · cases h
  · next k _ =>
    split at h
    · cases h
    · next x y _ =>
      split at h
      · cases h
      · next hzero =>
        obtain ⟨hr, hs⟩ := not_or.mp hzero
        cases h
        have hpos : 0 < order := by decide
        exact ⟨Nat.pos_of_ne_zero hr, Nat.mod_lt _ hpos, lower_bounds (Nat.mod_lt _ hpos) hs⟩

end SigningKey

namespace Signature

variable {sig : Signature}

theorem length_toBytes : sig.toBytes.length = 65 := by
  simp [toBytes]

private theorem take_toBytes : sig.toBytes.take 32 = Bytes.ofNat 32 sig.r := by
  rw [toBytes, List.append_assoc, List.take_append_of_le_length (by simp)]
  exact List.take_of_length_le (by simp)

private theorem take_drop_toBytes : (sig.toBytes.drop 32).take 32 = Bytes.ofNat 32 sig.s := by
  have hdrop : sig.toBytes.drop 32 = Bytes.ofNat 32 sig.s ++ [sig.v] := by
    rw [toBytes, List.append_assoc]
    exact List.drop_left' (Bytes.length_ofNat 32 sig.r)
  rw [hdrop, List.take_append_of_le_length (by simp)]
  exact List.take_of_length_le (by simp)

private theorem getD_toBytes : sig.toBytes.getD 64 0 = sig.v := by
  have hlen : (Bytes.ofNat 32 sig.r ++ Bytes.ofNat 32 sig.s).length = 64 := by simp
  rw [toBytes, List.getD_eq_getElem?_getD, List.getElem?_append_right (Nat.le_of_eq hlen), hlen]
  rfl

theorem eq_zero_or_one {v : UInt8} (h : v < 2) : v = 0 ∨ v = 1 := by
  have hnat := UInt8.lt_iff_toNat_lt.mp h
  rw [← UInt8.toNat_inj, ← UInt8.toNat_inj]
  change v.toNat < 2 at hnat
  change v.toNat = 0 ∨ v.toNat = 1
  omega

private theorem parity?_of_lt {v : UInt8} (h : v < 2) : parity? v = some (decide (v = 1)) := by
  rcases eq_zero_or_one h with rfl | rfl <;> rfl

end Signature

theorem Bytes.toNat_ofNat_of_lt {n : Nat} (h : n < order) : toNat (ofNat 32 n) = n := by
  rw [toNat_ofNat]
  exact Nat.mod_eq_of_lt (Nat.lt_trans h (by decide))

/-- Recovering judges the parts of a signature that are in their ranges by the curve alone. -/
theorem recover_toBytes {sig : Signature} {message : Bytes} {p : Point} (hr : 0 < sig.r ∧ sig.r < order)
    (hs : 0 < sig.s ∧ sig.s ≤ order / 2) (hv : sig.v < 2)
    (hp : recoverPoint sig.r sig.s (decide (sig.v = 1)) (Keccak.digest message) = some p) :
    recover sig.toBytes message = .ok p.address := by
  have hhalf : order / 2 < order := by decide
  generalize hf : recover = f
  delta recover at hf
  generalize recoverPoint = onCurve at hf hp
  subst hf
  simp only [Signature.length_toBytes, Signature.getD_toBytes, Signature.parity?_of_lt hv, Signature.take_toBytes,
    Signature.take_drop_toBytes, Bytes.toNat_ofNat_of_lt hr.2, Bytes.toNat_ofNat_of_lt (Nat.lt_of_le_of_lt hs.2 hhalf), hp]
  have hformat : ¬ (sig.r = 0 ∨ order ≤ sig.r ∨ sig.s = 0 ∨ order ≤ sig.s) := by omega
  have hlow : ¬ order / 2 < sig.s := Nat.not_lt.mpr hs.2
  simp only [hformat, hlow, ne_eq, not_true_eq_false, ↓reduceIte]

namespace SigningKey

variable {key : SigningKey} {message : Bytes}

/-- The curve gives the signer back for the signature that the key makes of a message. -/
def Recovers (key : SigningKey) (message : Bytes) : Prop :=
  ∀ sig, key.signDigest (Keccak.digest message) = .ok sig →
    sig.v < 2 ∧ recoverPoint sig.r sig.s (decide (sig.v = 1)) (Keccak.digest message) = some key.publicKey

private theorem map_eq_ok {ε α β : Type} {x : Except ε α} {f : α → β} {b : β} (h : x.map f = .ok b) :
    ∃ a, x = .ok a ∧ f a = b := by
  cases x with
  | error e => cases h
  | ok a => exact ⟨a, rfl, Except.ok.inj h⟩

/-- Whoever recovers the signer of a signed message finds the account of the key. -/
theorem recover_of_sign {signature : Bytes} (h : key.sign message = .ok signature) (hkey : key.Recovers message) :
    recover signature message = .ok key.address := by
  obtain ⟨sig, hsig, rfl⟩ := map_eq_ok h
  obtain ⟨hrpos, hr, hspos, hs⟩ := signDigest_bounds hsig
  obtain ⟨hv, hpoint⟩ := hkey sig hsig
  exact recover_toBytes ⟨hrpos, hr⟩ ⟨hspos, hs⟩ hv hpoint

end SigningKey

namespace SigningKey

variable {key : SigningKey} {digest message : Bytes} {sig : Signature}

/-- What is made of a digest, by its evaluation. -/
theorem signDigest_eq_ok (h : (key.signDigest digest).toOption = some sig) : key.signDigest digest = .ok sig := by
  revert h
  generalize key.signDigest digest = x
  intro h
  cases x with
  | error e => cases h
  | ok sig => exact congrArg Except.ok (Option.some.inj h)

theorem sign_eq_ok (hdigest : Keccak.digest message = digest) (hsign : key.signDigest digest = .ok sig) :
    key.sign message = .ok sig.toBytes := by
  rw [sign, hdigest, hsign]
  rfl

/-- The curve gives a signer back if it does so for the one signature that the key makes. -/
theorem recovers_of_signDigest (hdigest : Keccak.digest message = digest) (hsign : key.signDigest digest = .ok sig)
    (hv : sig.v < 2) (hp : recoverPoint sig.r sig.s (decide (sig.v = 1)) digest = some key.publicKey) :
    key.Recovers message := by
  intro sig' hsig'
  rw [hdigest, hsign] at hsig'
  cases hsig'
  rw [hdigest]
  exact ⟨hv, hp⟩

end SigningKey

/-- The key with the secret five. -/
def SigningKey.five : SigningKey := ⟨5, by decide, by decide⟩

/-- The account of the key with the secret five. -/
def Address.five : Address :=
  ⟨[225, 171, 129, 69, 247, 229, 93, 201, 51, 213, 26, 24, 199, 147, 249, 1, 163, 160, 178, 118], rfl⟩

theorem SigningKey.address_five : five.address = .five := by
  rw [address, Point.address, Keccak.digest_eq]
  decide +kernel

end SecretsGateway
