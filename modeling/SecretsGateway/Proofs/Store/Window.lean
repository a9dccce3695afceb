import Mathlib.Algebra.Group.Int.Defs
import Mathlib.Algebra.Group.Nat.Defs
import SecretsGateway.Proofs.Store.Owner

/-!
# The time for which a record may be kept

A record may expire after now, and no later than now and the greatest distance together. The limits count with signed numbers
of 64 bits: a sum that stops at the end of their range is compared as the true sum (`ofIntClamp_lt_iff`), but a distance from
`2 ^ 63` on is taken for a negative one, and then no record may be kept at all. So the limits judge by the true sum exactly if
the greatest distance is less than that (`Constraints.exact_iff`).
-/

namespace SecretsGateway

/-- A number that is not the least of its range lies above a sum that stops at the ends of the range exactly if it lies above
the true sum. -/
theorem ofIntClamp_lt_iff {x : Int} {now e : Int64} (h : now < e) : Int64.ofIntClamp x < e ↔ x < e.toInt := by
  have hnow := Int64.lt_iff_toInt_lt.1 h
  have hlow := now.le_toInt
  have hhigh := e.toInt_lt
  rw [Int64.lt_iff_toInt_lt]
  unfold Int64.ofIntClamp
  split
  · split
    · rw [Int64.toInt_ofIntLE]
    · next hx =>
      rw [Int64.toInt_maxValue] at hx ⊢
      omega
  · next hx =>
    rw [Int64.toInt_minValue] at hx ⊢
    omega

/-- A number from `2 ^ 63` on becomes negative when it is taken as a signed one. -/
private theorem toInt_toInt64 (n : UInt64) :
    n.toInt64.toInt = if n.toNat < 2 ^ 63 then (n.toNat : Int) else (n.toNat : Int) - 2 ^ 64 := by
  have hn := n.toNat_lt
  change n.toBitVec.toInt = _
  rw [BitVec.toInt_eq_toNat_cond, UInt64.toNat_toBitVec]
  split <;> split <;> omega

namespace Constraints

variable {c : Constraints} {key : SecretKey} {record : SecretRecord} {now e : Int64}

/-- An expiration that lies ahead is too distant if the true sum says so, or if the greatest distance is not a signed number. -/
private theorem latestExpiration_lt_iff (h : now < e) :
    c.latestExpiration now < e ↔ 2 ^ 63 ≤ c.maxExpiration.toNat ∨ now.toInt + c.maxExpiration.toNat < e.toInt := by
  have hnow := Int64.lt_iff_toInt_lt.1 h
  have hmax := c.maxExpiration.toNat_lt
  rw [latestExpiration, ofIntClamp_lt_iff h, toInt_toInt64]
  split <;> omega

/-- The slot and the payload are within the limits. -/
structure Fits (c : Constraints) (key : SecretKey) (record : SecretRecord) : Prop where
  slot : key.slot < c.maxSlots
  payload : record.payload.length ≤ c.maxPayload.toNat

/-- The expiration of a record is judged as the sum of now and the greatest distance asks for, whatever the size of the sum. -/
structure Exact (c : Constraints) (key : SecretKey) (record : SecretRecord) (now : Int64) : Prop where
  expired : c.check key record now = .error .expired ↔ record.expiration.toInt ≤ now.toInt
  tooLong : c.check key record now = .error .expirationTooLong ↔
    now.toInt + c.maxExpiration.toNat < record.expiration.toInt
  kept : c.check key record now = .ok () ↔
    now.toInt < record.expiration.toInt ∧ record.expiration.toInt ≤ now.toInt + c.maxExpiration.toNat

private theorem check_of_expired (h : c.Fits key record) (hexpired : record.expiration ≤ now) :
    c.check key record now = .error .expired := by
  rw [check, if_neg (UInt64.not_le.2 h.slot), if_neg (Nat.not_lt.2 h.payload), if_pos hexpired]

private theorem check_of_ahead (h : c.Fits key record) (hahead : now < record.expiration) :
    c.check key record now =
      if c.latestExpiration now < record.expiration then .error .expirationTooLong else .ok () := by
  rw [check, if_neg (UInt64.not_le.2 h.slot), if_neg (Nat.not_lt.2 h.payload), if_neg (Int64.not_le.2 hahead)]

/-- What the limits say about a record that fits, in true sums. -/
private theorem check_cases (h : c.Fits key record) (now : Int64) :
    (record.expiration.toInt ≤ now.toInt ∧ c.check key record now = .error .expired) ∨
    (now.toInt < record.expiration.toInt ∧
      (2 ^ 63 ≤ c.maxExpiration.toNat ∨ now.toInt + c.maxExpiration.toNat < record.expiration.toInt) ∧
      c.check key record now = .error .expirationTooLong) ∨
    (now.toInt < record.expiration.toInt ∧ c.maxExpiration.toNat < 2 ^ 63 ∧
      record.expiration.toInt ≤ now.toInt + c.maxExpiration.toNat ∧ c.check key record now = .ok ()) := by
  by_cases hexpired : record.expiration ≤ now
  · exact .inl ⟨Int64.le_iff_toInt_le.1 hexpired, check_of_expired h hexpired⟩
  · have hahead := Int64.not_le.1 hexpired
    have hcheck := check_of_ahead h hahead
    by_cases hlong : c.latestExpiration now < record.expiration
    · rw [if_pos hlong] at hcheck
      exact .inr (.inl ⟨Int64.lt_iff_toInt_lt.1 hahead, (latestExpiration_lt_iff hahead).1 hlong, hcheck⟩)
    · rw [if_neg hlong] at hcheck
      rw [latestExpiration_lt_iff hahead, not_or, Nat.not_le, Int.not_lt] at hlong
      exact .inr (.inr ⟨Int64.lt_iff_toInt_lt.1 hahead, hlong.1, hlong.2, hcheck⟩)

/-- The limits fail to judge a record by the true sum exactly if they keep nothing and the record is within its time. -/
private theorem exact_iff_of_fits (h : c.Fits key record) :
    c.Exact key record now ↔ c.maxExpiration.toNat < 2 ^ 63 ∨ record.expiration.toInt ≤ now.toInt ∨
      now.toInt + c.maxExpiration.toNat < record.expiration.toInt := by
  rcases check_cases h now with ⟨htime, hcheck⟩ | ⟨hahead, htime, hcheck⟩ | ⟨hahead, hsmall, htime, hcheck⟩
  · refine ⟨fun _ => .inr (.inl htime), fun _ => ⟨?_, ?_, ?_⟩⟩ <;> rw [hcheck] <;> simp <;> omega
  · constructor
    · intro hexact
      exact .inr (.inr (hexact.tooLong.1 hcheck))
    · intro hsmall
      have hlong : now.toInt + c.maxExpiration.toNat < record.expiration.toInt := by omega
      refine ⟨?_, ?_, ?_⟩ <;> rw [hcheck] <;> simp <;> omega
  · refine ⟨fun _ => .inl hsmall, fun _ => ⟨?_, ?_, ?_⟩⟩ <;> rw [hcheck] <;> simp <;> omega

/-- A record that fits every valid limits. -/
private theorem fits_of_validate (h : c.validate = .ok ()) (owner : Address) (version : UInt64) (e : Int64) :
    c.Fits ⟨owner, 0, version⟩ ⟨e, []⟩ := by
  have hslots : c.maxSlots ≠ 0 := by
    intro hzero
    simp only [validate, hzero, ↓reduceIte] at h
    split at h <;> cases h
  exact ⟨UInt64.pos_iff_ne_zero.2 hslots, Nat.zero_le _⟩

end Constraints

/-- Limits that are valid judge the expiration of every record that fits, at every time, as the true sum of now and the
greatest distance asks for, exactly if this distance is less than `2 ^ 63`. With a greater one a record is judged so only if
it has expired or is too distant anyway; every other one is refused as too distant, and a store refuses it, too. -/
theorem Constraints.exact_iff {c : Constraints} (hvalid : c.validate = .ok ()) :
    ((∀ key record now, c.Fits key record → c.Exact key record now) ↔ c.maxExpiration.toNat < 2 ^ 63) ∧
    (∀ key record now, c.Fits key record →
      (c.Exact key record now ↔ c.maxExpiration.toNat < 2 ^ 63 ∨ record.expiration.toInt ≤ now.toInt ∨
        now.toInt + c.maxExpiration.toNat < record.expiration.toInt) ∧
      (¬ c.Exact key record now → c.check key record now = .error .expirationTooLong)) ∧
    ∀ (s : Store) (now : Int64) (w : SecretWrite) (e : StorageError), s.constraints = c →
      c.check w.key w.record now = .error e → s.put now w = .error e := by
  refine ⟨⟨fun hall => ?_, fun hsmall key record now hfits => ?_⟩, fun key record now hfits => ⟨exact_iff_of_fits hfits, ?_⟩, ?_⟩
  · -- one second from zero lies within every distance
    have hfits := fits_of_validate hvalid .zero 0 1
    rcases (exact_iff_of_fits hfits).1 (hall _ _ 0 hfits) with hsmall | hexpired | hlong
    · exact hsmall
    · exact absurd hexpired (by decide)
    · have hone : (1 : Int64).toInt = 1 := by decide
      have hzero : (0 : Int64).toInt = 0 := by decide
      dsimp only at hlong
      omega
  · exact (exact_iff_of_fits hfits).2 (.inl hsmall)
  · intro hinexact
    rw [exact_iff_of_fits hfits] at hinexact
    rcases check_cases hfits now with ⟨htime, -⟩ | ⟨-, -, hcheck⟩ | ⟨-, hsmall, -, -⟩
    · exact absurd (.inr (.inl htime)) hinexact
    · exact hcheck
    · exact absurd (.inl hsmall) hinexact
  · intro s now w e hs hcheck
    rw [← hs] at hcheck
    exact Store.put_of_check_error hcheck

namespace Constraints

theorem exact_of_week : standard.validate = .ok () ∧ standard.maxExpiration.toNat < 2 ^ 63 ∧
    ∀ key record now, standard.Fits key record → standard.Exact key record now := by
  have hvalid : standard.validate = .ok () := rfl
  have hweek : standard.maxExpiration.toNat < 2 ^ 63 := by decide
  exact ⟨hvalid, hweek, (exact_iff hvalid).1.2 hweek⟩

/-- The standard limits, but with a distance that is one too large for a signed number. -/
def endless : Constraints := { standard with maxExpiration := 9223372036854775808 }

open Store.Replay in
/-- The limits are valid, and a write of the owner for the next hundred seconds is refused as too distant. -/
theorem refused_in_time : endless.validate = .ok () ∧ endless.Fits lasting.key lasting.record ∧
    (0 : Int64).toInt < lasting.record.expiration.toInt ∧
    lasting.record.expiration.toInt ≤ (0 : Int64).toInt + endless.maxExpiration.toNat ∧
    endless.check lasting.key lasting.record 0 = .error .expirationTooLong ∧
    ¬ endless.Exact lasting.key lasting.record 0 ∧
    (Store.fresh endless).put 0 lasting = .error .expirationTooLong := by
  have hfits : endless.Fits lasting.key lasting.record := ⟨by decide, by decide⟩
  have hcheck : endless.check lasting.key lasting.record 0 = .error .expirationTooLong := by
    rw [check_of_ahead hfits (by decide), if_pos (by decide +kernel)]
  have htime : lasting.record.expiration.toInt ≤ (0 : Int64).toInt + endless.maxExpiration.toNat := by decide +kernel
  refine ⟨rfl, hfits, by decide, htime, hcheck, fun hexact => ?_, Store.put_of_check_error hcheck⟩
  exact absurd (hexact.tooLong.1 hcheck) (Int.not_lt.2 htime)

end Constraints

end SecretsGateway
