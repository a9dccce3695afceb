import SecretsGateway.Proofs.Crypto.Generator
import SecretsGateway.Proofs.Signing.Judgement

/-!
# One signature for two messages

A signature with numbers `r` and `s`, whose `r` belongs to the point `R`, leads from the number `z` of a digest to the public key
`r⁻¹ (s R - z G)`. For another number it leads to another key (`digestNumber_eq_of_recoverPoint`). So if one account is found to
have signed two messages with one signature, then two hashes coincide: those of the messages, or those of two keys, of which the
accounts are made (`eq_or_collision`).
-/

namespace SecretsGateway

open Secp256k1 Signature

namespace Secp256k1

/-- No point of the curve has the second coordinate zero, for `-7` is no cube. -/
private theorem cube_add_seven_ne_zero (x : Field) : x ^ 3 + 7 ≠ 0 := by
  intro hzero
  have hpower : powMod prime (prime - 7) ((prime - 1) / 3) ≠ 1 := by decide +kernel
  have hseven : ((prime - 7 : Nat) : Field) = x ^ 3 := by
    rw [Nat.cast_sub (by decide), ZMod.natCast_self]
    linear_combination -hzero
  have hx : x ≠ 0 := by
    rintro rfl
    rw [zero_pow (by decide), natCast_eq_zero_iff (by decide)] at hseven
    exact absurd hseven (by decide)
  rw [Ne, powMod_eq_one_iff prime_prime.one_lt (by decide), hseven, ← pow_mul] at hpower
  exact hpower (ZMod.pow_card_sub_one_eq_one hx)

/-- What is found over a first coordinate is a point of the curve. -/
private theorem exists_ofGroup_of_lift? {x : Nat} {odd : Bool} {a : Point} (hx : x < prime) (h : Point.lift? x odd = some a) :
    ∃ P, Point.ofGroup P = a := by
  unfold Point.lift? at h
  dsimp only at h
  have hrlt := powMod_lt prime_prime.one_lt (m := prime) (a := (x * x % prime * x + 7) % prime) (e := (prime + 1) / 4) (by decide)
  generalize powMod prime ((x * x % prime * x + 7) % prime) ((prime + 1) / 4) = root at h hrlt
  split at h
  · cases h
  · next hsquare =>
    have hcurve : (root : Field) ^ 2 = (x : Field) ^ 3 + 7 := by
      have hcast := (ZMod.natCast_eq_natCast_iff' _ _ prime).2 ((Decidable.not_not.1 hsquare).trans (Nat.mod_mod _ _).symm)
      push_cast [ZMod.natCast_mod] at hcast
      linear_combination hcast
    have hroot : (root : Field) ≠ 0 := fun hzero => by
      rw [hzero, zero_pow two_ne_zero] at hcurve
      exact cube_add_seven_ne_zero x hcurve.symm
    have hxval := ZMod.val_natCast_of_lt hx
    have hrval := ZMod.val_natCast_of_lt hrlt
    split at h
    · cases h
      exact ⟨.some x root (nonsingular_iff.2 hcurve), by rw [Point.ofGroup, hxval, hrval]⟩
    · cases h
      have hneg : (-(root : Field)) ^ 2 = (x : Field) ^ 3 + 7 := by rw [neg_sq, hcurve]
      exact ⟨.some x (-root) (nonsingular_iff.2 hneg), by rw [Point.ofGroup, hxval, val_neg hroot, hrval]⟩

end Secp256k1

variable {r s : Nat} {odd : Bool} {digest digest' signature message message' : Bytes} {p p' : Point} {a : Address}

/-- A key that the curve gives for a digest is a sum of two points, and only the multiple of the generator depends on the digest. -/
private theorem exists_of_recoverPoint (hr : r < order) (h : recoverPoint r s odd digest = some p) :
    ∃ nonce : Group, Point.lift? r odd = some (.ofGroup nonce) ∧
      p = .ofGroup (((order - inverseMod order r * digestNumber digest % order) % order) • base +
        (inverseMod order r * s % order) • nonce) := by
  have hmod : ∀ n, n % order < 2 ^ 256 := fun n => Nat.lt_trans (Nat.mod_lt n order_prime.pos) order_lt
  unfold recoverPoint at h
  cases hlift : Point.lift? r odd with
  | none =>
    rw [hlift] at h
    cases h
  | some q =>
    obtain ⟨nonce, rfl⟩ := exists_ofGroup_of_lift? (Nat.lt_trans hr (by decide)) hlift
    rw [hlift] at h
    dsimp only [Option.bind_eq_bind, Option.bind_some] at h
    rw [mul_generator (hmod _), Point.mul_ofGroup (hmod _), Point.add_ofGroup] at h
    refine ⟨nonce, rfl, ?_⟩
    split at h
    · cases h
    · exact (Option.some.inj h).symm

/-- For digests with different numbers the curve does not give the same key. -/
theorem digestNumber_eq_of_recoverPoint (hpos : 0 < r) (hr : r < order) (h : recoverPoint r s odd digest = some p)
    (h' : recoverPoint r s odd digest' = some p) : digestNumber digest = digestNumber digest' := by
  obtain ⟨nonce, hnonce, rfl⟩ := exists_of_recoverPoint hr h
  obtain ⟨nonce', hnonce', hsame⟩ := exists_of_recoverPoint hr h'
  rw [hnonce] at hnonce'
  rw [← Point.ofGroup_injective (Option.some.inj hnonce')] at hsame
  have hmultiples := add_right_cancel (Point.ofGroup_injective hsame)
  have hle : ∀ n, n % order ≤ order := fun n => (Nat.mod_lt n order_prime.pos).le
  rw [nsmul_base_eq_iff, ZMod.natCast_mod, ZMod.natCast_mod, natCast_order_sub (hle _), natCast_order_sub (hle _),
    ZMod.natCast_mod, ZMod.natCast_mod, Nat.cast_mul, Nat.cast_mul, natCast_inverse_order, neg_inj,
    mul_right_inj' (inv_ne_zero (natCast_order_ne_zero hpos hr)), ZMod.natCast_eq_natCast_iff'] at hmultiples
  rwa [digestNumber, digestNumber, Nat.mod_mod, Nat.mod_mod] at hmultiples

/-- The public key to which a signature leads from a digest, if the bytes of the signature show no fault. -/
def recoverKey (signature digest : Bytes) : Option Point :=
  match fault? signature with
  | some _ => none
  | none =>
    recoverPoint (ofBytes signature).r (ofBytes signature).s ((parity? (ofBytes signature).v).getD false) digest

/-- The account that is found to have signed a message is that of the key. -/
private theorem recover_eq_ok_iff :
    recover signature message = .ok a ↔ ∃ p, recoverKey signature (Keccak.digest message) = some p ∧ p.address = a := by
  rw [recover_eq_recoverDigest, recoverDigest, recoverKey]
  cases fault? signature with
  | some e => simp only [reduceCtorEq, false_and, exists_false]
  | none =>
    dsimp only
    generalize recoverPoint _ _ _ (Keccak.digest message) = found
    cases found with
    | none => simp only [reduceCtorEq, false_and, exists_false]
    | some p => simp

private theorem digestNumber_eq_of_recoverKey (h : recoverKey signature digest = some p)
    (h' : recoverKey signature digest' = some p) : digestNumber digest = digestNumber digest' := by
  unfold recoverKey at h h'
  cases hfault : fault? signature with
  | some e =>
    rw [hfault] at h
    cases h
  | none =>
    rw [hfault] at h h'
    obtain ⟨-, -, ⟨hr, -⟩, -⟩ := (fault?_iff signature).2.2.2.2.1 hfault
    exact digestNumber_eq_of_recoverPoint hr.1 hr.2 h h'

/-- Two hashes that coincide where a signature is used for two messages. -/
inductive Collision (signature message message' : Bytes) : Prop
  /-- The messages differ, and their digests stand for the same number. -/
  | digests : message ≠ message' → digestNumber (Keccak.digest message) = digestNumber (Keccak.digest message') →
      Collision signature message message'
  /-- The digests stand for different numbers, so the signature leads to different keys; but these have the same account. -/
  | accounts {p p' : Point} : digestNumber (Keccak.digest message) ≠ digestNumber (Keccak.digest message') →
      recoverKey signature (Keccak.digest message) = some p → recoverKey signature (Keccak.digest message') = some p' →
      p ≠ p' → p.address = p'.address → Collision signature message message'

/-- If an account is found to have signed two messages with one signature, they are the same or there is a collision. -/
theorem eq_or_collision (h : recover signature message = .ok a) (h' : recover signature message' = .ok a) :
    message = message' ∨ Collision signature message message' := by
  obtain ⟨p, hp, rfl⟩ := recover_eq_ok_iff.1 h
  obtain ⟨p', hp', haddress⟩ := recover_eq_ok_iff.1 h'
  by_cases hne : message = message'
  · exact .inl hne
  · right
    by_cases hnumber : digestNumber (Keccak.digest message) = digestNumber (Keccak.digest message')
    · exact .digests hne hnumber
    · refine .accounts hnumber hp hp' ?_ haddress.symm
      rintro rfl
      exact hnumber (digestNumber_eq_of_recoverKey hp hp')

end SecretsGateway
