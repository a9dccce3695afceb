import SecretsGateway.Proofs.Crypto.Curve

/-!
# The group of the generator

The generator is a point of the curve (`base`), and its multiples are a group of the prime size `order`
(`addOrderOf_base`). So they depend on the factor modulo `order` (`nsmul_base_eq_iff`), and none but the one at infinity is its
own negative (`snd_nsmul_base_ne_zero`).
-/

namespace SecretsGateway.Secp256k1

open WeierstrassCurve.Affine.Point (add_self_of_Y_eq neg_some)

instance : Fact order.Prime := ⟨order_prime⟩

theorem order_lt : order < 2 ^ 256 := by decide

theorem natCast_order_sub {n : Nat} (h : n ≤ order) : ((order - n : Nat) : ZMod order) = -n := by
  rw [Nat.cast_sub h, ZMod.natCast_self, zero_sub]

theorem natCast_order_ne_zero {n : Nat} (hpos : 0 < n) (hlt : n < order) : (n : ZMod order) ≠ 0 := by
  rw [Ne, ZMod.natCast_eq_zero_iff]
  exact Nat.not_dvd_of_pos_of_lt hpos hlt

theorem natCast_inverse_order (a : Nat) : ((inverseMod order a : Nat) : ZMod order) = (a : ZMod order)⁻¹ :=
  natCast_inverseMod order_prime (by decide) order_lt a

private theorem exists_base : ∃ P, Point.ofGroup P = generator := Point.exists_ofGroup (by decide) (by decide) (by decide)

/-- The generator, as a point of the group. -/
noncomputable def base : Group := exists_base.choose

private theorem ofGroup_base : Point.ofGroup base = generator := exists_base.choose_spec

private theorem order_nsmul_base : order • base = 0 := by
  have hmul : Point.mul order generator = .infinity := by decide +kernel
  rw [← ofGroup_base, Point.mul_ofGroup (by decide)] at hmul
  exact Point.ofGroup_injective hmul

theorem addOrderOf_base : addOrderOf base = order := by
  have hne : base ≠ 0 := by
    intro hzero
    have hbase := ofGroup_base
    rw [hzero, Point.ofGroup_zero] at hbase
    exact absurd hbase (by decide)
  exact addOrderOf_eq_prime order_nsmul_base hne

theorem nsmul_base_eq_iff {j k : Nat} : j • base = k • base ↔ (j : ZMod order) = k := by
  rw [nsmul_eq_nsmul_iff_modEq, addOrderOf_base, ZMod.natCast_eq_natCast_iff]

variable {k : Nat} {x y : Field} {h : curve.Nonsingular x y}

theorem mul_generator (hk : k < 2 ^ 256) : Point.mul k generator = .ofGroup (k • base) := by
  rw [← ofGroup_base, Point.mul_ofGroup hk]

theorem nsmul_base_ne_zero (hpos : 0 < k) (hlt : k < order) : k • base ≠ 0 := by
  rw [Ne, ← zero_nsmul base, nsmul_base_eq_iff, Nat.cast_zero]
  exact natCast_order_ne_zero hpos hlt

/-- No multiple of the generator is its own negative, so none has the second coordinate zero. -/
theorem snd_nsmul_base_ne_zero (hpos : 0 < k) (hlt : k < order) (heq : k • base = .some x y h) : y ≠ 0 := by
  rintro rfl
  have htwice : (2 * k) • base = 0 • base := by
    rw [two_mul, add_nsmul, heq, zero_nsmul]
    exact add_self_of_Y_eq (by rw [negY_eq, neg_zero])
  rw [nsmul_base_eq_iff, Nat.cast_zero, ZMod.natCast_eq_zero_iff, order_prime.dvd_mul] at htwice
  rcases htwice with htwo | hk
  · exact Nat.not_dvd_of_pos_of_lt (by decide) (by decide) htwo
  · exact Nat.not_dvd_of_pos_of_lt hpos hlt hk

theorem sub_nsmul_base (hlt : k < order) (heq : k • base = .some x y h) : ∃ h', (order - k) • base = .some x (-y) h' := by
  have hneg : (order - k) • base = -(k • base) := by
    rw [eq_neg_iff_add_eq_zero, ← add_nsmul, Nat.sub_add_cancel hlt.le, order_nsmul_base]
  refine ⟨nonsingular_iff.2 (by rw [neg_sq, nonsingular_iff.1 h]), ?_⟩
  rw [hneg, heq, neg_some]
  simp only [negY_eq]

end SecretsGateway.Secp256k1
