import SecretsGateway.Proofs.Store.Origin

/-!
# What a store decides about a write

There are six reasons against a write, and a store looks for them one after the other (`Store.put_eq_first`). It names the
first one that it finds and stays as it is; without any it takes the write in and changes nothing else. The version that a
place holds is looked at last, so nobody learns of it without the signature of the owner (`Store.put_decides`).
-/

namespace SecretsGateway

/-- The reasons against a write, in the order in which a store looks for them. -/
def StorageError.inOrder : List StorageError :=
  [.slotTooBig, .payloadTooBig, .expired, .expirationTooLong, .wrongSignature, .versionTooLow]

namespace Store

/-- There is this reason against a write, whatever the others. -/
def Objects (s : Store) (now : Int64) (w : SecretWrite) : StorageError → Prop
  | .slotTooBig => s.constraints.maxSlots ≤ w.key.slot
  | .payloadTooBig => s.constraints.maxPayload.toNat < w.record.payload.length
  | .expired => w.record.expiration ≤ now
  | .expirationTooLong => s.constraints.latestExpiration now < w.record.expiration
  | .wrongSignature => (WriteEnvelope.ofWrite w.key w.record).recover w.signature ≠ .ok w.key.owner
  | .versionTooLow => ∃ held, s.kept? w.place = some held ∧ w.key.version ≤ held.key.version
  | .backend _ => False

variable {s : Store} {now : Int64} {w : SecretWrite}

/-- Without the signature of the owner a write within the limits is refused before its place is looked at. -/
private theorem put_of_not_authorised (hlimits : s.constraints.check w.key w.record now = .ok ()) (h : w.isAuthorised = false) :
    s.put now w = .error .wrongSignature := by
  rw [put, hlimits, h]
  rfl

private theorem put_of_old {held : SecretWrite} (hlimits : s.constraints.check w.key w.record now = .ok ())
    (hauthorised : w.isAuthorised = true) (hheld : s.kept? w.place = some held) (hold : w.key.version ≤ held.key.version) :
    s.put now w = .error .versionTooLow := by
  rw [put, hlimits, hauthorised, hheld]
  exact if_pos hold

open Classical in
/-- A store names the first reason against a write, or takes the write in. -/
theorem put_eq_first (s : Store) (now : Int64) (w : SecretWrite) :
    s.put now w = match StorageError.inOrder.find? fun e => decide (s.Objects now w e) with
      | some e => .error e
      | none => .ok (s.insert w) := by
  -- in the order of the checks, so that whatever stands before a check that fails is known to have passed
  by_cases hslot : s.constraints.maxSlots ≤ w.key.slot
  · rw [put_of_check_error (if_pos hslot)]
    simp [StorageError.inOrder, Objects, hslot]
  by_cases hpayload : s.constraints.maxPayload.toNat < w.record.payload.length
  · have hcheck : s.constraints.check w.key w.record now = .error .payloadTooBig := by
      rw [Constraints.check, if_neg hslot, if_pos hpayload]
    rw [put_of_check_error hcheck]
    simp [StorageError.inOrder, Objects, hslot, hpayload]
  by_cases hexpired : w.record.expiration ≤ now
  · have hcheck : s.constraints.check w.key w.record now = .error .expired := by
      rw [Constraints.check, if_neg hslot, if_neg hpayload, if_pos hexpired]
    rw [put_of_check_error hcheck]
    simp [StorageError.inOrder, Objects, hslot, hpayload, hexpired]
  by_cases hdistant : s.constraints.latestExpiration now < w.record.expiration
  · have hcheck : s.constraints.check w.key w.record now = .error .expirationTooLong := by
      rw [Constraints.check, if_neg hslot, if_neg hpayload, if_neg hexpired, if_pos hdistant]
    rw [put_of_check_error hcheck]
    simp [StorageError.inOrder, Objects, hslot, hpayload, hexpired, hdistant]
  have hlimits : s.constraints.check w.key w.record now = .ok () := by
    rw [Constraints.check, if_neg hslot, if_neg hpayload, if_neg hexpired, if_neg hdistant]
  by_cases hsigned : (WriteEnvelope.ofWrite w.key w.record).recover w.signature = .ok w.key.owner
  · have hauthorised := SecretWrite.isAuthorised_iff.2 hsigned
    by_cases hold : ∃ held, s.kept? w.place = some held ∧ w.key.version ≤ held.key.version
    · obtain ⟨held, hheld, hle⟩ := hold
      rw [put_of_old hlimits hauthorised hheld hle]
      simp [StorageError.inOrder, Objects, hslot, hpayload, hexpired, hdistant, hsigned, hheld, hle]
    · have hnewer : ∀ held ∈ s.kept? w.place, held.key.version < w.key.version := fun held hheld =>
        UInt64.not_le.1 fun hle => hold ⟨held, hheld, hle⟩
      rw [put_eq_ok_iff.2 ⟨hlimits, hauthorised, hnewer, rfl⟩]
      simp [StorageError.inOrder, Objects, hslot, hpayload, hexpired, hdistant, hsigned, hold]
  · have hauthorised := mt SecretWrite.isAuthorised_iff.1 hsigned
    rw [put_of_not_authorised hlimits (Bool.eq_false_iff.2 hauthorised)]
    simp [StorageError.inOrder, Objects, hslot, hpayload, hexpired, hdistant, hsigned]

/-- A write is refused for a reason exactly if there is this reason against it and none that is looked for before. -/
private theorem put_eq_error_iff {e : StorageError} : s.put now w = .error e ↔
    ∃ earlier later, StorageError.inOrder = earlier ++ e :: later ∧ s.Objects now w e ∧
      ∀ e' ∈ earlier, ¬ s.Objects now w e' := by
  classical
  have hfirst : s.put now w = .error e ↔
      (StorageError.inOrder.find? fun e => decide (s.Objects now w e)) = some e := by
    rw [put_eq_first]
    cases StorageError.inOrder.find? fun e => decide (s.Objects now w e) with
    | none => simp
    | some e' => simp
  rw [hfirst, List.find?_eq_some_iff_append]
  simp only [decide_eq_true_eq, Bool.not_eq_true', decide_eq_false_iff_not]
  constructor
  · rintro ⟨hobjects, earlier, later, horder, hnone⟩
    exact ⟨earlier, later, horder, hobjects, hnone⟩
  · rintro ⟨earlier, later, horder, hobjects, hnone⟩
    exact ⟨hobjects, earlier, later, horder, hnone⟩

/-- Without the signature of the owner a write is refused for a reason that no place has to be looked at for. -/
private theorem exists_put_eq_error (h : w.isAuthorised = false) :
    ∃ e, e ≠ .versionTooLow ∧ ∀ t : Store, t.constraints = s.constraints → t.put now w = .error e := by
  cases hlimits : s.constraints.check w.key w.record now with
  | ok _ =>
    refine ⟨.wrongSignature, by decide, fun t ht => ?_⟩
    rw [← ht] at hlimits
    exact put_of_not_authorised hlimits h
  | error e =>
    refine ⟨e, ?_, fun t ht => ?_⟩
    · rintro rfl
      exact absurd (Constraints.mem_of_check_eq_error hlimits) (by decide)
    · rw [← ht] at hlimits
      exact put_of_check_error hlimits

private theorem mem_writes_insert {u : SecretWrite} : u ∈ (s.insert w).writes ↔ u = w ∨ u ∈ s.writes ∧ u.place ≠ w.place := by
  rw [mem_writes_iff, kept?_insert, mem_writes_iff]
  by_cases hplace : w.place = u.place
  · rw [if_pos hplace]
    simp [hplace, eq_comm]
  · rw [if_neg hplace]
    constructor
    · exact fun hu => .inr ⟨hu, Ne.symm hplace⟩
    · rintro (rfl | ⟨hu, -⟩)
      · exact absurd rfl hplace
      · exact hu

/-- A store takes a write in exactly if it is within the limits, its owner is recovered from its signature, and its place holds
nothing that is as new, expired or not. Otherwise it names the first reason against the write. Without the signature of the
owner this is the same reason whatever any place holds. A write that is refused changes nothing at all, and one that is taken
in becomes what its place holds, while every other place and the limits stay as they are. -/
theorem put_decides (s : Store) (now : Int64) (w : SecretWrite) :
    ((∃ t, s.put now w = .ok t) ↔ s.constraints.check w.key w.record now = .ok () ∧
      (WriteEnvelope.ofWrite w.key w.record).recover w.signature = .ok w.key.owner ∧
      ∀ held, s.kept? w.place = some held → held.key.version < w.key.version) ∧
    (∀ e, s.put now w = .error e ↔ ∃ earlier later, StorageError.inOrder = earlier ++ e :: later ∧
      s.Objects now w e ∧ ∀ e' ∈ earlier, ¬ s.Objects now w e') ∧
    ((WriteEnvelope.ofWrite w.key w.record).recover w.signature ≠ .ok w.key.owner →
      ∃ e, e ≠ .versionTooLow ∧ ∀ t : Store, t.constraints = s.constraints → t.put now w = .error e) ∧
    (∀ e, s.put now w = .error e → s.use ⟨now, .put w⟩ = s) ∧
    ∀ t, s.put now w = .ok t → s.use ⟨now, .put w⟩ = t ∧ t.constraints = s.constraints ∧
      (∀ p, t.kept? p = if p = w.place then some w else s.kept? p) ∧
      ∀ u, u ∈ t.writes ↔ u = w ∨ u ∈ s.writes ∧ u.place ≠ w.place := by
  refine ⟨?_, fun e => put_eq_error_iff, fun hunsigned => ?_, fun e => use_of_put_error, fun t hput => ?_⟩
  · rw [← SecretWrite.isAuthorised_iff]
    constructor
    · rintro ⟨t, hput⟩
      obtain ⟨hlimits, hauthorised, hnewer, -⟩ := put_eq_ok_iff.1 hput
      exact ⟨hlimits, hauthorised, hnewer⟩
    · rintro ⟨hlimits, hauthorised, hnewer⟩
      exact ⟨_, put_eq_ok_iff.2 ⟨hlimits, hauthorised, hnewer, rfl⟩⟩
  · exact exists_put_eq_error (Bool.eq_false_iff.2 (mt SecretWrite.isAuthorised_iff.1 hunsigned))
  · obtain ⟨-, -, -, rfl⟩ := put_eq_ok_iff.1 hput
    refine ⟨use_of_put_ok hput, rfl, fun p => ?_, fun u => mem_writes_insert⟩
    rw [kept?_insert]
    simp only [eq_comm]

end Store

end SecretsGateway
