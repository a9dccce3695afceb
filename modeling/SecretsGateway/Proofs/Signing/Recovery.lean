import SecretsGateway.Proofs.Crypto.Absorption
import SecretsGateway.Proofs.Crypto.Generator
import SecretsGateway.Proofs.Signing.Lowering

/-!
# The signer is recovered

With the nonce `k`, the secret `d` and the number `z` of a digest, `s k = z + r d` modulo the order, so the point of the nonce
and `s` give the public key back: `r⁻¹ (s k - z) = d` (`recoverPoint_eq`). The negative of `s` does so with the negative of that
point, which has the other parity (`RawSignature.recovers_of_ofNonce?`). Hence nothing is lost by taking the lower of the two:
whoever recovers the signer of a message finds the account of the key, wherever the message is cut into parts
(`SigningKey.signParts_recovered`).
-/

namespace SecretsGateway

open Secp256k1

section Curve

variable {r s secret j k : Nat} {odd : Bool} {digest : Bytes}

/-- If the point of a nonce is found, and `s` is right for the nonce, the curve gives the public key of the secret back. -/
theorem recoverPoint_eq (hr : (r : ZMod order) ≠ 0) (hpos : 0 < secret) (hsecret : secret < order)
    (hlift : Point.lift? r odd = some (.ofGroup (j • base)))
    (hs : (s : ZMod order) * j = digestNumber digest + r * secret) :
    recoverPoint r s odd digest = some (.mul secret generator) := by
  have hmod : ∀ n, n % order < 2 ^ 256 := fun n => Nat.lt_trans (Nat.mod_lt n order_prime.pos) order_lt
  let w := inverseMod order r
  have hsum : ((order - w * digestNumber digest % order) % order) • base + (w * s % order) • j • base = secret • base := by
    rw [smul_smul, ← add_nsmul, nsmul_base_eq_iff]
    push_cast [ZMod.natCast_mod]
    rw [natCast_order_sub (Nat.mod_lt _ order_prime.pos).le, ZMod.natCast_mod, Nat.cast_mul, natCast_inverse_order]
    field_simp
    linear_combination hs
  have hkey := nsmul_base_ne_zero hpos hsecret
  unfold recoverPoint
  rw [hlift]
  dsimp only [Option.bind_eq_bind, Option.bind_some]
  rw [mul_generator (hmod _), Point.mul_ofGroup (hmod _), Point.add_ofGroup, hsum,
    mul_generator (Nat.lt_trans hsecret order_lt)]
  generalize secret • base = key at hkey
  rcases key with _ | ⟨x, y, h⟩
  · exact absurd rfl hkey
  · rfl

/-- What a nonce makes of a number `z` is right for the nonce. -/
private theorem mul_nonce (hk : (k : ZMod order) ≠ 0) (z r secret : Nat) :
    ((inverseMod order k * ((z + r * secret) % order) % order : Nat) : ZMod order) * k = z + r * secret := by
  push_cast [ZMod.natCast_mod]
  rw [natCast_inverse_order]
  field_simp

namespace RawSignature

variable {raw : RawSignature} {p : Point}

/-- The curve gives a point back for a signature. -/
def Recovers (raw : RawSignature) (digest : Bytes) (p : Point) : Prop :=
  recoverPoint raw.r raw.s raw.odd digest = some p

/-- From a signature whose nonce has a point with its first coordinate below the order, the curve gives the public key back,
and so it does from its negative. -/
theorem recovers_of_ofNonce? (h : ofNonce? (digestNumber digest) secret k = some raw) (hwraps : raw.wraps = false)
    (hpos : 0 < secret) (hsecret : secret < order) (hk : 0 < k ∧ k < order) :
    raw.Recovers digest (.mul secret generator) ∧ raw.negate.Recovers digest (.mul secret generator) := by
  obtain ⟨x, y, hpoint, hzero, rfl⟩ := ofNonce?_eq_some h
  rw [mul_generator (Nat.lt_trans hk.2 order_lt)] at hpoint
  rcases hnonce : k • base with _ | ⟨X, Y, hXY⟩
  · exact absurd hnonce (nsmul_base_ne_zero hk.1 hk.2)
  rw [hnonce] at hpoint
  obtain ⟨rfl, rfl⟩ := Point.affine.inj hpoint
  have hY := snd_nsmul_base_ne_zero hk.1 hk.2 hnonce
  obtain ⟨hXY', hnegative⟩ := sub_nsmul_base hk.2 hnonce
  have hx : X.val % order = X.val := Nat.mod_eq_of_lt (Nat.not_le.1 (of_decide_eq_false hwraps))
  have hr := natCast_order_ne_zero (Nat.pos_of_ne_zero (not_or.1 hzero).1) (Nat.mod_lt _ order_prime.pos)
  have hs := mul_nonce (natCast_order_ne_zero hk.1 hk.2) (digestNumber digest) X.val secret
  unfold Recovers negate
  dsimp only
  rw [hx] at hr ⊢
  have hslt := Nat.mod_lt (inverseMod order k * ((digestNumber digest + X.val * secret) % order)) order_prime.pos
  generalize inverseMod order k * ((digestNumber digest + X.val * secret) % order) % order = s at hs hslt ⊢
  constructor
  · refine recoverPoint_eq hr hpos hsecret ?_ hs
    rw [hnonce]
    exact lift?_some hXY hY
  · -- Both the nonce and `s` are negated.
    have hs' : ((order - s : Nat) : ZMod order) * (order - k : Nat) = digestNumber digest + (X.val : Nat) * secret := by
      rw [natCast_order_sub hslt.le, natCast_order_sub hk.2.le, neg_mul_neg, hs]
    refine recoverPoint_eq hr hpos hsecret ?_ hs'
    rw [hnegative, ← odd_val_neg hY]
    exact lift?_some hXY' (neg_ne_zero.2 hY)

private theorem lower_recovers (h : raw.Recovers digest p) (hneg : raw.negate.Recovers digest p) (hwraps : raw.wraps = false) :
    raw.lower.v < 2 ∧ recoverPoint raw.lower.r raw.lower.s (decide (raw.lower.v = 1)) digest = some p := by
  have hbyte : ∀ odd : Bool, let v : UInt8 := (if odd then 1 else 0) + (if false then 2 else 0)
      v < 2 ∧ decide (v = 1) = odd := by decide
  unfold lower
  split
  · have hv := hbyte raw.negate.odd
    rw [toSignature, show raw.negate.wraps = false from hwraps]
    exact ⟨hv.1, by rw [hv.2]; exact hneg⟩
  · have hv := hbyte raw.odd
    rw [toSignature, hwraps]
    exact ⟨hv.1, by rw [hv.2]; exact h⟩

end RawSignature

private theorem NonceChain.draw_bounds {tries : Nat} {c : NonceChain} (h : draw tries c = some k) : 0 < k ∧ k < order := by
  induction tries generalizing c with
  | zero => cases h
  | succ tries ih =>
    rw [draw] at h
    split at h
    · next hrange =>
      cases h
      exact hrange
    · exact ih h

/-- Unless the point of the nonce has its first coordinate above the order, the curve gives the signer of a message back. -/
private theorem SigningKey.recovers_of_rawSignature? {key : SigningKey} {message : Bytes} {raw : RawSignature}
    (h : key.rawSignature? (Keccak.digest message) = some raw) (hwraps : raw.wraps = false) : key.Recovers message := by
  obtain ⟨k, hnonce, hraw⟩ := Option.bind_eq_some_iff.1 h
  obtain ⟨hcurve, hcurve_neg⟩ :=
    RawSignature.recovers_of_ofNonce? hraw hwraps key.pos key.lt_order (NonceChain.draw_bounds hnonce)
  intro sig hsig
  rw [signDigest_of_rawSignature? h] at hsig
  cases hsig
  exact RawSignature.lower_recovers hcurve hcurve_neg hwraps

end Curve

namespace SigningKey

/-- Signs a message that is given in parts. -/
def signParts (key : SigningKey) (parts : List Bytes) : Except SignatureError Bytes :=
  (key.signDigest (Keccak.digestParts parts)).map Signature.toBytes

theorem signParts_eq (key : SigningKey) (parts : List Bytes) : key.signParts parts = key.sign parts.flatten := by
  rw [signParts, Keccak.digestParts_eq, sign]

end SigningKey

/-- The account whose key signed a message that is given in parts. -/
def recoverParts (bs : Bytes) (parts : List Bytes) : Except SignatureError Address :=
  recoverDigest bs (Keccak.digestParts parts)

private theorem recoverParts_eq (bs : Bytes) (parts : List Bytes) : recoverParts bs parts = recover bs parts.flatten := by
  rw [recoverParts, Keccak.digestParts_eq, recover_eq_recoverDigest]

/-- What a key signs is sixty-five bytes `r ‖ s ‖ v` with `r` and `s` positive and below the order, `s` at most half of it and
`v` zero or one, if the nonce gives a signature whose point has its first coordinate below the order. From these bytes, and
with 27 more for `v`, the account of the key is recovered, over all parts that make up the same message. -/
theorem SigningKey.signParts_recovered {key : SigningKey} {parts : List Bytes} {raw : RawSignature}
    (h : key.rawSignature? (Keccak.digestParts parts) = some raw) (hwraps : raw.wraps = false) :
    ∃ r s : Nat, ∃ v : UInt8,
      key.signParts parts = .ok (Bytes.ofNat 32 r ++ Bytes.ofNat 32 s ++ [v]) ∧
      (Bytes.ofNat 32 r ++ Bytes.ofNat 32 s ++ [v]).length = 65 ∧
      (0 < r ∧ r < order) ∧ (0 < s ∧ s < order) ∧ 2 * s ≤ order ∧ (v = 0 ∨ v = 1) ∧
      ∀ others : List Bytes, others.flatten = parts.flatten →
        recoverParts (Bytes.ofNat 32 r ++ Bytes.ofNat 32 s ++ [v]) others = .ok key.address ∧
        recoverParts (Bytes.ofNat 32 r ++ Bytes.ofNat 32 s ++ [v + 27]) others = .ok key.address := by
  have horder := order_odd
  rw [Keccak.digestParts_eq] at h
  have hsign := signDigest_of_rawSignature? h
  have hrecovers := recovers_of_rawSignature? h hwraps
  have hbytes : key.sign parts.flatten = .ok raw.lower.toBytes := sign_eq_ok rfl hsign
  obtain ⟨hrpos, hr, hspos, hs⟩ := signDigest_bounds hsign
  have hv := Signature.eq_zero_or_one (hrecovers _ hsign).1
  refine ⟨raw.lower.r, raw.lower.s, raw.lower.v, (signParts_eq key parts).trans hbytes, Signature.length_toBytes, ⟨hrpos, hr⟩,
    ⟨hspos, by omega⟩, by omega, hv, fun others hothers => ?_⟩
  have hrecover : recover raw.lower.toBytes parts.flatten = .ok key.address := recover_of_sign hbytes hrecovers
  rw [recoverParts_eq, recoverParts_eq, hothers, ← recover_concat_add hv]
  exact ⟨hrecover, hrecover⟩

namespace SigningKey.Byte

/-- The byte zero, after an empty part. -/
def parts : List Bytes := [[], [0]]

def digest : Bytes :=
  [188, 54, 120, 158, 122, 30, 40, 20, 54, 70, 66, 41, 130, 143, 129, 125, 102, 18, 247, 180, 119, 214, 101, 145, 255, 150,
   169, 224, 100, 188, 201, 138]

/-- What the nonce of the key five gives; its `s` is high. -/
def raw : RawSignature :=
  ⟨31652772278938007180411565900969059335949858116333039981679100708545121437855,
   107234578365599574788481569650026597409387377343138350839616814328252673283263, false, false⟩

/-- The signature of the byte zero is the negative of what the nonce gives, and the key five is recovered from it, also if the
empty part comes last. -/
theorem recovered_sample : five.rawSignature? (Keccak.digestParts parts) = some raw ∧ raw.wraps = false ∧ order < 2 * raw.s ∧
    ∃ signature, five.signParts parts = .ok signature ∧ recoverParts signature [[0], []] = .ok five.address := by
  have hdigest : Keccak.digestParts parts = digest := by
    rw [Keccak.digestParts_eq, Keccak.digest_eq]
    decide +kernel
  have hraw : five.rawSignature? (Keccak.digestParts parts) = some raw := by
    rw [hdigest]
    decide +kernel
  obtain ⟨r, s, v, hsign, -, -, -, -, -, hrecover⟩ := signParts_recovered hraw rfl
  exact ⟨hraw, rfl, by decide, _, hsign, (hrecover [[0], []] rfl).1⟩

end SigningKey.Byte

end SecretsGateway
