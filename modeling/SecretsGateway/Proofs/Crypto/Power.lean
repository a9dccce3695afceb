import SecretsGateway.Crypto.Secp256k1
import Mathlib.Data.List.Prime
import Mathlib.FieldTheory.Finite.Basic
import Mathlib.NumberTheory.LucasPrimality
import Mathlib.Tactic.NormNum.Prime

/-!
# Powers along the binary digits

Powers and multiples are taken along the 256 binary digits of a number, highest first. What holds before the first digit, and
goes from `j` to `2 j` or `2 j + 1` with each digit, holds in the end of the number itself (`foldl_bits`). So `powMod` is the
power (`powMod_eq`), and with it a number can be tested by its predecessor's prime factors (`Candidate.prime`). The field and
the group of the curve have prime size (`prime_prime`, `order_prime`), and inverses modulo a prime are powers
(`natCast_inverseMod`).
-/

namespace SecretsGateway.Secp256k1

section Fold

variable {α : Type} {Q : Nat → α → Prop} {f : α → Bool → α}

/-- Along the lowest `n` digits of `k`, from a state that has seen the number `j`. -/
private theorem foldl_digits (step : ∀ j a bit, Q j a → Q (2 * j + bit.toNat) (f a bit)) (k n j : Nat) (a : α) (h : Q j a) :
    Q (2 ^ n * j + k % 2 ^ n) (((List.range n).reverse.map (Nat.testBit k)).foldl f a) := by
  induction n generalizing j a with
  | zero => simpa [Nat.mod_one] using h
  | succ n ih =>
    have hdigits : 2 ^ (n + 1) * j + k % 2 ^ (n + 1) = 2 ^ n * (2 * j + (k.testBit n).toNat) + k % 2 ^ n := by
      rw [Nat.toNat_testBit, Nat.mod_pow_succ, pow_succ]
      ring
    rw [List.range_succ, List.reverse_append, List.reverse_singleton, List.singleton_append, List.map_cons, List.foldl_cons,
      hdigits]
    exact ih _ _ (step j a _ h)

theorem foldl_bits (step : ∀ j a bit, Q j a → Q (2 * j + bit.toNat) (f a bit)) {k : Nat} (hk : k < 2 ^ 256) {a : α}
    (h : Q 0 a) : Q k ((bits k).foldl f a) := by
  have hall := foldl_digits step k 256 0 a h
  rwa [Nat.mul_zero, Nat.zero_add, Nat.mod_eq_of_lt hk] at hall

end Fold

variable {m a e : Nat}

theorem powMod_eq (hm : 1 < m) (he : e < 2 ^ 256) : powMod m a e = a ^ e % m := by
  refine foldl_bits (Q := fun j acc => acc = a ^ j % m) (fun j acc bit hacc => ?_) he ?_
  · have hdouble : acc * acc % m = a ^ (2 * j) % m := by
      rw [hacc, ← Nat.mul_mod, two_mul, pow_add]
    cases bit with
    | false => simpa using hdouble
    | true =>
      rw [if_pos rfl, hdouble, Nat.mod_mul_mod, ← pow_succ]
      rfl
  · rw [pow_zero, Nat.mod_eq_of_lt hm]

theorem powMod_lt (hm : 1 < m) (he : e < 2 ^ 256) : powMod m a e < m := by
  rw [powMod_eq hm he]
  exact Nat.mod_lt _ (by omega)

theorem natCast_powMod (hm : 1 < m) (he : e < 2 ^ 256) : ((powMod m a e : Nat) : ZMod m) = (a : ZMod m) ^ e := by
  rw [powMod_eq hm he, ZMod.natCast_mod, Nat.cast_pow]

theorem powMod_eq_one_iff (hm : 1 < m) (he : e < 2 ^ 256) : powMod m a e = 1 ↔ (a : ZMod m) ^ e = 1 := by
  have hcast := ZMod.natCast_eq_natCast_iff' (a ^ e) 1 m
  rw [Nat.mod_eq_of_lt hm, Nat.cast_pow, Nat.cast_one] at hcast
  rw [powMod_eq hm he, hcast]

theorem natCast_inverseMod (hm : m.Prime) (htwo : 2 < m) (hlt : m < 2 ^ 256) (a : Nat) :
    ((inverseMod m a : Nat) : ZMod m) = (a : ZMod m)⁻¹ := by
  have : Fact m.Prime := ⟨hm⟩
  rw [inverseMod, natCast_powMod hm.one_lt (by omega)]
  rcases eq_or_ne (a : ZMod m) 0 with hzero | hne
  · rw [hzero, inv_zero, zero_pow (by omega)]
  · have hpower : (a : ZMod m) ^ (m - 2) * a = 1 := by
      rw [← pow_succ, show m - 2 + 1 = m - 1 by omega, ZMod.pow_card_sub_one_eq_one hne]
    exact eq_inv_of_mul_eq_one_left hpower

/-- A number that may be prime, a base, and the prime factors of the number's predecessor, each as often as it occurs. -/
structure Candidate where
  number : Nat
  base : Nat
  factors : List Nat

namespace Candidate

/-- The base has the predecessor of the number for its order, and the factors are among the known numbers. -/
def Passes (known : List Nat) (c : Candidate) : Prop :=
  1 < c.number ∧ c.number < 2 ^ 256 ∧ c.factors.prod + 1 = c.number ∧ powMod c.number c.base (c.number - 1) = 1 ∧
    ∀ q ∈ c.factors, q ∈ known ∧ powMod c.number c.base ((c.number - 1) / q) ≠ 1

instance (known : List Nat) (c : Candidate) : Decidable (c.Passes known) := inferInstanceAs (Decidable (_ ∧ _))

/-- Each one passes by the numbers that are known at first and those before it. -/
def AllPass : (known : List Nat) → List Candidate → Prop
  | _, [] => True
  | known, c :: cs => c.Passes known ∧ AllPass (c.number :: known) cs

instance decidableAllPass : (known : List Nat) → (cs : List Candidate) → Decidable (AllPass known cs)
  | _, [] => .isTrue trivial
  | known, c :: cs => haveI := decidableAllPass (c.number :: known) cs; inferInstanceAs (Decidable (_ ∧ _))

variable {known : List Nat} {c : Candidate} {cs : List Candidate}

private theorem Passes.prime (h : c.Passes known) (hknown : ∀ q ∈ known, q.Prime) : c.number.Prime := by
  obtain ⟨hone, hlt, hprod, hbase, hfactors⟩ := h
  have hpred : c.factors.prod = c.number - 1 := by omega
  have hexponent : ∀ q, (c.number - 1) / q < 2 ^ 256 := fun q =>
    Nat.lt_of_le_of_lt (Nat.div_le_self _ _) (by omega)
  refine lucas_primality c.number c.base ((powMod_eq_one_iff hone (by omega)).1 hbase) fun q hq hdvd => ?_
  obtain ⟨q', hmem, hdvd⟩ := (Prime.dvd_prod_iff hq.prime).1 (hpred ▸ hdvd)
  obtain ⟨hknown', hpower⟩ := hfactors q' hmem
  obtain rfl : q = q' := (Nat.prime_dvd_prime_iff_eq hq (hknown q' hknown')).1 hdvd
  exact mt (powMod_eq_one_iff hone (hexponent q)).2 hpower

private theorem AllPass.prime (h : AllPass known cs) (hknown : ∀ q ∈ known, q.Prime) : ∀ c ∈ cs, c.number.Prime := by
  induction cs generalizing known with
  | nil => exact fun c hc => absurd hc List.not_mem_nil
  | cons c cs ih =>
    have hprime := h.1.prime hknown
    have hlonger : ∀ q ∈ c.number :: known, q.Prime := List.forall_mem_cons.2 ⟨hprime, hknown⟩
    exact List.forall_mem_cons.2 ⟨hprime, ih h.2 hlonger⟩

end Candidate

/-- Primes that need no such test. -/
def smallPrimes : List Nat :=
  [2, 3, 5, 7, 11, 17, 29, 31, 41, 59, 109, 149, 293, 461, 631, 797, 1627, 2621, 2657, 4051, 4423, 5323, 7723, 13441, 16699,
   24809, 28181, 41201, 85831, 96557, 120233, 305873, 1627771, 4681609, 7240687, 13331831, 44706919, 107590001]

private theorem prime_of_mem_smallPrimes : ∀ q ∈ smallPrimes, q.Prime := by
  norm_num [smallPrimes]

/-- What is to be known of the prime factors of one less than `prime` and `order`, and of their own predecessors. -/
def candidates : List Candidate :=
  [⟨173378833005251801, 6, [2, 2, 2, 5, 5, 2621, 24809, 13331831]⟩,
   ⟨22149492674086928081353, 5, [2, 2, 2, 3, 5323, 173378833005251801]⟩,
   ⟨132896956044521568488119, 6, [2, 3, 22149492674086928081353]⟩,
   ⟨255515944373312847190720520512484175977, 3,
    [2, 2, 2, 7, 7, 11, 1627, 2657, 4423, 41201, 96557, 7240687, 107590001]⟩,
   ⟨205115282021455665897114700593932402728804164701536103180137503955397371, 10,
    [2, 3, 5, 29, 29, 31, 7723, 132896956044521568488119, 255515944373312847190720520512484175977]⟩,
   ⟨prime, 3, [2, 3, 7, 13441, 205115282021455665897114700593932402728804164701536103180137503955397371]⟩,
   ⟨107361793816595537, 3, [2, 2, 2, 2, 16699, 85831, 4681609]⟩,
   ⟨174723607534414371449, 3, [2, 2, 2, 17, 59, 4051, 120233, 44706919]⟩,
   ⟨545358713, 5, [2, 2, 2, 41, 59, 28181]⟩,
   ⟨297159362677, 2, [2, 2, 3, 3, 11, 461, 1627771]⟩,
   ⟨29047611873442575647497758179, 2, [2, 293, 305873, 545358713, 297159362677]⟩,
   ⟨341948486974166000522343609283189, 2, [2, 2, 3, 3, 3, 109, 29047611873442575647497758179]⟩,
   ⟨order, 7, [2, 2, 2, 2, 2, 2, 3, 149, 631, 107361793816595537, 174723607534414371449,
    341948486974166000522343609283189]⟩]

private theorem allPass_candidates : Candidate.AllPass smallPrimes candidates := by decide +kernel

private theorem prime_of_mem_candidates {n : Nat} (h : n ∈ candidates.map Candidate.number) : n.Prime := by
  obtain ⟨c, hc, rfl⟩ := List.mem_map.1 h
  exact allPass_candidates.prime prime_of_mem_smallPrimes c hc

theorem prime_prime : prime.Prime := prime_of_mem_candidates (by decide)

theorem order_prime : order.Prime := prime_of_mem_candidates (by decide)

end SecretsGateway.Secp256k1
