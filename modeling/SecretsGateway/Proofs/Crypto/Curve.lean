import SecretsGateway.Proofs.Crypto.Power
import Mathlib.AlgebraicGeometry.EllipticCurve.Affine.Point
import Mathlib.Tactic.FieldSimp
import Mathlib.Tactic.LinearCombination

/-!
# The group of the curve

The points of `y² = x³ + 7` over the field of size `prime` are a group (`Group`). Its elements are written down by their
coordinates (`Point.ofGroup`), and each weighted point spells one of them (`Weighted.Spells`). Doubling and adding weighted points
is the sum of the group (`Weighted.Spells.double`, `Weighted.Spells.add`), so sums and multiples of points are those of the group
(`Point.add_ofGroup`, `Point.mul_ofGroup`). A point is found by its first coordinate and the parity of its second one
(`lift?_some`).
-/

namespace SecretsGateway.Secp256k1

open WeierstrassCurve.Affine
open WeierstrassCurve.Affine.Point (add_of_X_ne add_of_Y_eq add_self_of_Y_eq add_self_of_Y_ne)

instance : Fact prime.Prime := ⟨prime_prime⟩

abbrev Field := ZMod prime

/-- The curve `y² = x³ + 7`. -/
def curve : WeierstrassCurve.Affine Field := ⟨0, 0, 0, 0, 7⟩

/-- The points of the curve and the one at infinity, as a group. -/
abbrev Group := curve.Point

theorem natCast_eq_zero_iff {n : Nat} (h : n < prime) : (n : Field) = 0 ↔ n = 0 := by
  rw [ZMod.natCast_eq_zero_iff, Nat.dvd_iff_mod_eq_zero, Nat.mod_eq_of_lt h]

private theorem natCast_ne_zero {n : Nat} (hpos : n ≠ 0) (h : n < prime) : (n : Field) ≠ 0 :=
  mt (natCast_eq_zero_iff h).1 hpos

private theorem eq_zero_iff_of_weighted {n k : Nat} {u v z : Field} (hn : n < prime) (hz : z ≠ 0)
    (h : (n : Field) = (u - v) * z ^ k) : n = 0 ↔ u = v := by
  rw [← natCast_eq_zero_iff hn, h, mul_eq_zero, sub_eq_zero, or_iff_left (pow_ne_zero k hz)]

private theorem mod_lt_prime (n : Nat) : n % prime < prime := Nat.mod_lt _ prime_prime.pos

private theorem sub_lt (a b : Nat) : sub a b < prime := mod_lt_prime _

private theorem natCast_sub {a b : Nat} (h : b < prime) : ((sub a b : Nat) : Field) = a - b := by
  rw [sub, ZMod.natCast_mod, Nat.cast_sub (by omega), Nat.cast_add, ZMod.natCast_self, add_zero]

private theorem natCast_inverse (a : Nat) : ((inverseMod prime a : Nat) : Field) = (a : Field)⁻¹ :=
  natCast_inverseMod prime_prime (by decide) (by decide) a

private theorem Field.two_ne_zero : (2 : Field) ≠ 0 := natCast_ne_zero (n := 2) (by decide) (by decide)

private theorem equation_iff {x y : Field} : curve.Equation x y ↔ y ^ 2 = x ^ 3 + 7 := by
  rw [WeierstrassCurve.Affine.equation_iff]
  simp [curve]

theorem nonsingular_iff {x y : Field} : curve.Nonsingular x y ↔ y ^ 2 = x ^ 3 + 7 := by
  have hdiscriminant : curve.Δ = -((21168 : Nat) : Field) := by
    simp only [WeierstrassCurve.Δ, WeierstrassCurve.b₂, WeierstrassCurve.b₄, WeierstrassCurve.b₆, WeierstrassCurve.b₈, curve]
    push_cast
    ring
  have hne : curve.Δ ≠ 0 := hdiscriminant ▸ neg_ne_zero.2 (natCast_ne_zero (by decide) (by decide))
  rw [← equation_iff_nonsingular_of_Δ_ne_zero hne, equation_iff]

@[simp] theorem negY_eq (x y : Field) : curve.negY x y = -y := by
  simp [negY, curve]

/-- A point of the group as its coordinates. -/
def Point.ofGroup : Group → Point
  | .zero => .infinity
  | .some x y _ => .affine x.val y.val

theorem Point.exists_ofGroup {x y : Nat} (hx : x < prime) (hy : y < prime) (h : y * y % prime = (x * x * x + 7) % prime) :
    ∃ P, ofGroup P = .affine x y := by
  have hcurve : (y : Field) ^ 2 = (x : Field) ^ 3 + 7 := by
    have hcast := (ZMod.natCast_eq_natCast_iff' _ _ prime).2 h
    push_cast at hcast
    linear_combination hcast
  refine ⟨.some x y (nonsingular_iff.2 hcurve), ?_⟩
  rw [ofGroup, ZMod.val_natCast_of_lt hx, ZMod.val_natCast_of_lt hy]

theorem Point.ofGroup_zero : ofGroup 0 = .infinity := rfl

theorem Point.ofGroup_injective : Function.Injective ofGroup := by
  rintro (_ | ⟨x, y, h⟩) (_ | ⟨x', y', h'⟩) heq
  · rfl
  · cases heq
  · cases heq
  · obtain ⟨hx, hy⟩ := Point.affine.inj heq
    obtain rfl := ZMod.val_injective prime hx
    obtain rfl := ZMod.val_injective prime hy
    rfl

namespace Weighted

/-- All three numbers are below the size of the field. -/
def Reduced (a : Weighted) : Prop := a.x < prime ∧ a.y < prime ∧ a.z < prime

/-- A weighted point stands for a point of the group. That the numbers are reduced is needed where the program subtracts them. -/
def Spells (a : Weighted) : Group → Prop
  | .zero => a.z = 0
  | .some x y _ => a.Reduced ∧ (a.z : Field) ≠ 0 ∧ (a.x : Field) = x * a.z ^ 2 ∧ (a.y : Field) = y * a.z ^ 3

variable {a : Weighted} {P Q : Group}

private theorem spells_infinity : infinity.Spells 0 := rfl

private theorem spells_ofPoint (P : Group) : (ofPoint (.ofGroup P)).Spells P := by
  rcases P with _ | ⟨x, y, h⟩
  · exact rfl
  · exact ⟨⟨ZMod.val_lt x, ZMod.val_lt y, prime_prime.one_lt⟩, by simp [ofPoint, Point.ofGroup]⟩

private theorem Spells.toPoint_eq (h : a.Spells P) : a.toPoint = .ofGroup P := by
  rcases P with _ | ⟨x, y, hxy⟩
  · exact if_pos h
  · obtain ⟨⟨-, -, hlt⟩, hz, hx, hy⟩ := h
    have hval : ∀ n : Nat, n % prime = (n : Field).val := fun n => (ZMod.val_natCast prime n).symm
    rw [toPoint, if_neg (mt (natCast_eq_zero_iff hlt).2 hz), Point.ofGroup]
    dsimp only
    rw [hval (a.x * _), hval (a.y * _)]
    congr 2
    · rw [Nat.cast_mul, ZMod.natCast_mod, Nat.cast_mul, natCast_inverse, hx]
      field_simp
    · rw [Nat.cast_mul, ZMod.natCast_mod, Nat.cast_mul, ZMod.natCast_mod, Nat.cast_mul, natCast_inverse, hy]
      field_simp

private theorem reduced_double (a : Weighted) : a.double.Reduced := ⟨sub_lt _ _, sub_lt _ _, mod_lt_prime _⟩

private theorem natCast_double (a : Weighted) :
    (a.double.x : Field) = (3 * a.x ^ 2) ^ 2 - 2 * (4 * a.x * a.y ^ 2) ∧
    (a.double.y : Field) = 3 * a.x ^ 2 * (4 * a.x * a.y ^ 2 - a.double.x) - 8 * a.y ^ 4 ∧
    (a.double.z : Field) = 2 * a.y * a.z := by
  refine ⟨?_, ?_, ?_⟩
  · rw [double, natCast_sub (mod_lt_prime _)]
    push_cast [ZMod.natCast_mod]
    ring
  · rw [double, natCast_sub (mod_lt_prime _)]
    push_cast [ZMod.natCast_mod]
    rw [natCast_sub (sub_lt _ _), natCast_sub (mod_lt_prime _)]
    push_cast [ZMod.natCast_mod]
    ring
  · rw [double]
    push_cast [ZMod.natCast_mod]
    ring

theorem Spells.double (h : a.Spells P) : a.double.Spells (P + P) := by
  rcases P with _ | ⟨x, y, hxy⟩
  · have hz : a.z = 0 := h
    change a.double.z = 0
    rw [Weighted.double, hz, Nat.mul_zero, Nat.zero_mod]
  · obtain ⟨-, hz, hx, hy⟩ := h
    obtain ⟨hdx, hdy, hdz⟩ := natCast_double a
    by_cases hzero : y = 0
    · -- The tangent is vertical.
      rw [add_self_of_Y_eq (by rw [negY_eq, hzero, neg_zero])]
      have hdouble : (a.double.z : Field) = 0 := by rw [hdz, hy, hzero, zero_mul, mul_zero, zero_mul]
      exact (natCast_eq_zero_iff (reduced_double a).2.2).1 hdouble
    · have htwo := Field.two_ne_zero
      have hY : y ≠ curve.negY x y := by
        rw [negY_eq, Ne, eq_neg_iff_add_eq_zero, ← two_mul]
        exact mul_ne_zero htwo hzero
      have hslope : curve.slope x x y y = 3 * x ^ 2 / (2 * y) := by
        rw [slope_of_Y_ne rfl hY, negY_eq]
        simp [curve, two_mul]
      rw [add_self_of_Y_ne hY]
      refine ⟨reduced_double a, ?_, ?_, ?_⟩
      · rw [hdz, hy]
        exact mul_ne_zero (mul_ne_zero htwo (mul_ne_zero hzero (pow_ne_zero 3 hz))) hz
      · rw [hslope, addX, hdx, hdz, hx, hy]
        simp only [curve]
        field_simp
        ring
      · rw [hslope, addY, negY_eq, negAddY, addX, hdy, hdx, hdz, hx, hy]
        simp only [curve]
        field_simp
        ring

/-- How much further a first coordinate is than that of a weighted point, with its weight. -/
def run (a : Weighted) (x : Nat) : Nat := sub (x * (a.z * a.z % prime) % prime) a.x

/-- How much further a second coordinate is than that of a weighted point, with its weight. -/
def rise (a : Weighted) (y : Nat) : Nat := sub (y * (a.z * a.z % prime * a.z % prime) % prime) a.y

/-- The sum with a point that is `h` and `r` further. -/
def chord (a : Weighted) (h r : Nat) : Weighted :=
  let h2 := h * h % prime
  let h3 := h2 * h % prime
  let u := a.x * h2 % prime
  let x := sub (r * r % prime) ((h3 + 2 * u) % prime)
  ⟨x, sub (r * sub u x % prime) (a.y * h3 % prime), h * a.z % prime⟩

private theorem add_affine (a : Weighted) (x y : Nat) : a.add (.affine x y) =
    if a.z = 0 then ⟨x, y, 1⟩
    else if a.run x = 0 then if a.rise y = 0 then a.double else infinity else a.chord (a.run x) (a.rise y) := rfl

private theorem reduced_chord (a : Weighted) (h r : Nat) : (a.chord h r).Reduced := ⟨sub_lt _ _, sub_lt _ _, mod_lt_prime _⟩

private theorem natCast_run (ha : a.Reduced) (x : Nat) : (a.run x : Field) = x * a.z ^ 2 - a.x := by
  rw [run, natCast_sub ha.1]
  push_cast [ZMod.natCast_mod]
  ring

private theorem natCast_rise (ha : a.Reduced) (y : Nat) : (a.rise y : Field) = y * a.z ^ 3 - a.y := by
  rw [rise, natCast_sub ha.2.1]
  push_cast [ZMod.natCast_mod]
  ring

private theorem natCast_chord (a : Weighted) (h r : Nat) :
    ((a.chord h r).x : Field) = r ^ 2 - (h ^ 3 + 2 * (a.x * h ^ 2)) ∧
    ((a.chord h r).y : Field) = r * (a.x * h ^ 2 - (a.chord h r).x) - a.y * h ^ 3 ∧
    ((a.chord h r).z : Field) = h * a.z := by
  refine ⟨?_, ?_, ?_⟩
  · rw [chord, natCast_sub (mod_lt_prime _)]
    push_cast [ZMod.natCast_mod]
    ring
  · rw [chord, natCast_sub (mod_lt_prime _)]
    push_cast [ZMod.natCast_mod]
    rw [natCast_sub (sub_lt _ _), natCast_sub (mod_lt_prime _)]
    push_cast [ZMod.natCast_mod]
    ring
  · rw [chord]
    push_cast [ZMod.natCast_mod]
    ring

theorem Spells.add (h : a.Spells P) (Q : Group) : (a.add (.ofGroup Q)).Spells (P + Q) := by
  -- The cases are those of the program: a point at infinity, the same first coordinate, two different ones.
  rcases Q with _ | ⟨x', y', hQ⟩
  · exact (add_zero P).symm ▸ h
  rcases P with _ | ⟨x, y, hP⟩
  · have hz : a.z = 0 := h
    rw [Point.ofGroup, add_affine, if_pos hz]
    exact (zero_add (WeierstrassCurve.Affine.Point.some x' y' hQ)).symm ▸ spells_ofPoint (.some x' y' hQ)
  have hdouble := h.double
  obtain ⟨ha, hz, hx, hy⟩ := h
  have hrun : (a.run x'.val : Field) = (x' - x) * a.z ^ 2 := by
    rw [natCast_run ha, ZMod.natCast_zmod_val, hx]
    ring
  have hrise : (a.rise y'.val : Field) = (y' - y) * a.z ^ 3 := by
    rw [natCast_rise ha, ZMod.natCast_zmod_val, hy]
    ring
  have hrun_zero : a.run x'.val = 0 ↔ x' = x := eq_zero_iff_of_weighted (sub_lt _ _) hz hrun
  have hrise_zero : a.rise y'.val = 0 ↔ y' = y := eq_zero_iff_of_weighted (sub_lt _ _) hz hrise
  rw [Point.ofGroup, add_affine, if_neg (mt (natCast_eq_zero_iff ha.2.2).2 hz)]
  by_cases hsame : x' = x
  · rw [if_pos (hrun_zero.2 hsame)]
    subst hsame
    by_cases hequal : y' = y
    · rw [if_pos (hrise_zero.2 hequal)]
      subst hequal
      exact hdouble
    · rw [if_neg (mt hrise_zero.1 hequal)]
      have hneg := (Y_eq_of_X_eq hP.1 hQ.1 rfl).resolve_left (Ne.symm hequal)
      rw [add_of_Y_eq rfl hneg]
      exact spells_infinity
  · have hne : x - x' ≠ 0 := sub_ne_zero.2 (Ne.symm hsame)
    have hslope : curve.slope x x' y y' = (y - y') / (x - x') := slope_of_X_ne (Ne.symm hsame)
    obtain ⟨hcx, hcy, hcz⟩ := natCast_chord a (a.run x'.val) (a.rise y'.val)
    rw [if_neg (mt hrun_zero.1 hsame), add_of_X_ne (Ne.symm hsame)]
    refine ⟨reduced_chord _ _ _, ?_, ?_, ?_⟩
    · rw [hcz, hrun]
      exact mul_ne_zero (mul_ne_zero (sub_ne_zero.2 hsame) (pow_ne_zero 2 hz)) hz
    · rw [hslope, addX, hcx, hcz, hrun, hrise, hx]
      simp only [curve]
      field_simp
      ring
    · rw [hslope, addY, negY_eq, negAddY, addX, hcy, hcx, hcz, hrun, hrise, hx, hy]
      simp only [curve]
      field_simp
      ring

/-- One digit of a factor: a double, and one more point if the digit is one. -/
private theorem Spells.digit {j : Nat} {P : Group} (h : a.Spells (j • P)) (bit : Bool) :
    (if bit then a.double.add (.ofGroup P) else a.double).Spells ((2 * j + bit.toNat) • P) := by
  have hdouble : a.double.Spells ((2 * j) • P) := by
    rw [two_mul, add_nsmul]
    exact h.double
  cases bit with
  | false => exact hdouble
  | true =>
    rw [if_pos rfl, Bool.toNat_true, add_nsmul, one_nsmul]
    exact hdouble.add P

end Weighted

namespace Point

/-! ### Sums and multiples of points -/

theorem add_ofGroup (P Q : Group) : add (ofGroup P) (ofGroup Q) = ofGroup (P + Q) :=
  ((Weighted.spells_ofPoint P).add Q).toPoint_eq

theorem mul_ofGroup {k : Nat} (hk : k < 2 ^ 256) (P : Group) : mul k (ofGroup P) = ofGroup (k • P) := by
  have hzero : Weighted.infinity.Spells (0 • P) := (zero_nsmul P).symm ▸ Weighted.spells_infinity
  exact (foldl_bits (Q := fun j a => Weighted.Spells a (j • P)) (fun _ _ bit h => h.digit bit) hk hzero).toPoint_eq

end Point

private theorem natCast_root {n : Nat} {y : Field} (h : (n : Field) = y ^ 2) :
    ((powMod prime n ((prime + 1) / 4) : Nat) : Field) = y ∨ ((powMod prime n ((prime + 1) / 4) : Nat) : Field) = -y := by
  have hexponent : 2 * ((prime + 1) / 4 * 2) = prime + 1 := by decide
  rw [natCast_powMod prime_prime.one_lt (by decide), h, ← sq_eq_sq_iff_eq_or_eq_neg, ← pow_mul, ← pow_mul, hexponent, pow_succ,
    ZMod.pow_card, sq]

theorem val_neg {y : Field} (hy : y ≠ 0) : (-y).val = prime - y.val := by
  rw [ZMod.neg_val, if_neg hy]

/-- The size of the field is odd, so an element and its negative differ in their parity. -/
theorem odd_val_neg {y : Field} (hy : y ≠ 0) : ((-y).val % 2 == 1) = !(y.val % 2 == 1) := by
  have hodd : prime % 2 = 1 := by decide
  have hlt := ZMod.val_lt y
  rw [val_neg hy]
  rcases Nat.mod_two_eq_zero_or_one y.val with heven | hodd'
  · have hneg : (prime - y.val) % 2 = 1 := by omega
    rw [heven, hneg]
    rfl
  · have hneg : (prime - y.val) % 2 = 0 := by omega
    rw [hodd', hneg]
    rfl

/-- A point is found by its first coordinate and the parity of the second. -/
theorem lift?_some {x y : Field} (h : curve.Nonsingular x y) (hy : y ≠ 0) :
    Point.lift? x.val (y.val % 2 == 1) = some (.ofGroup (.some x y h)) := by
  have hsquare : (((x.val * x.val % prime * x.val + 7) % prime : Nat) : Field) = y ^ 2 := by
    rw [nonsingular_iff.1 h]
    push_cast [ZMod.natCast_mod, ZMod.natCast_zmod_val]
    ring
  unfold Point.lift?
  dsimp only
  have hlt := mod_lt_prime (x.val * x.val % prime * x.val + 7)
  generalize (x.val * x.val % prime * x.val + 7) % prime = square at hsquare hlt ⊢
  have hroot := natCast_root hsquare
  have hrlt := powMod_lt prime_prime.one_lt (m := prime) (a := square) (e := (prime + 1) / 4) (by decide)
  generalize powMod prime square ((prime + 1) / 4) = root at hroot hrlt ⊢
  have hvalue := ZMod.val_natCast_of_lt hrlt
  have hagain : root * root % prime = square := by
    rw [← Nat.mod_eq_of_lt hlt, ← ZMod.natCast_eq_natCast_iff', hsquare, Nat.cast_mul, ← sq, sq_eq_sq_iff_eq_or_eq_neg]
    exact hroot
  rw [if_neg (not_not_intro hagain), Point.ofGroup]
  rcases hroot with hroot | hroot
  · rw [hroot] at hvalue
    rw [if_pos (by rw [hvalue]), hvalue]
  · rw [hroot] at hvalue
    have hother : ¬ (root % 2 == 1) = (y.val % 2 == 1) := by
      rw [← hvalue, odd_val_neg hy]
      exact (Bool.not_eq_self _).1
    rw [if_neg hother, ← hvalue, val_neg hy, Nat.sub_sub_self (ZMod.val_lt y).le]

end SecretsGateway.Secp256k1
