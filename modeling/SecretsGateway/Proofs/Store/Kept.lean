import SecretsGateway.Store

/-!
# What a place holds

The operations of a store by what they do to a place. A write replaces what its own place holds and nothing else
(`Store.kept?_insert`), a purge takes away what has expired (`Store.kept?_purge`), and a write is accepted exactly if it is
within the limits, signed by its owner and newer than what its place holds (`Store.put_eq_ok_iff`).
-/

namespace SecretsGateway

private theorem SecretWrite.find?_insertInto (w : SecretWrite) (l : List SecretWrite) (p : Place) :
    (w.insertInto l).find? (fun u => u.place = p) = if w.place = p then some w else l.find? fun u => u.place = p := by
  induction l with
  | nil => by_cases hw : w.place = p <;> simp [insertInto, hw]
  | cons v rest ih =>
    unfold insertInto
    by_cases hwv : w.place < v.place
    · rw [if_pos hwv]
      by_cases hw : w.place = p <;> simp [List.find?_cons, hw]
    · rw [if_neg hwv]
      by_cases hvw : v.place < w.place
      · rw [if_pos hvw]
        by_cases hv : v.place = p
        · have hw : w.place ≠ p := by
            intro hw
            rw [hv, ← hw] at hvw
            exact Place.lt_irrefl _ hvw
          simp [hv, hw]
        · simp only [List.find?_cons, hv, decide_false, ih]
      · have hplace : w.place = v.place := Place.eq_of_not_lt hwv hvw
        rw [if_neg hvw]
        by_cases hw : w.place = p
        · simp [hw]
        · have hv : v.place ≠ p := hplace ▸ hw
          simp [hw, hv]

/-- Among entries in order only one is for a place, so taking some away takes away its entry or nothing. -/
private theorem find?_filter_of_pairwise {l : List SecretWrite} (h : l.Pairwise fun a b => a.place < b.place)
    (stays : SecretWrite → Bool) (p : Place) :
    (l.filter stays).find? (fun u => u.place = p) = (l.find? fun u => u.place = p).filter stays := by
  induction l with
  | nil => rfl
  | cons v rest ih =>
    obtain ⟨hv, hrest⟩ := List.pairwise_cons.1 h
    by_cases hplace : v.place = p
    · by_cases hstays : stays v = true
      · simp [hplace, hstays, Option.filter_some]
      · have hnone : (rest.filter stays).find? (fun u => u.place = p) = none := by
          rw [List.find?_eq_none]
          intro u hu heq
          have hlt := hv u (List.mem_filter.1 hu).1
          rw [hplace, of_decide_eq_true heq] at hlt
          exact Place.lt_irrefl p hlt
        simp [hplace, hstays, hnone, Option.filter_some]
    · by_cases hstays : stays v = true <;> simp [hplace, hstays, ih hrest]

/-- A record may be kept exactly if its slot, its size and both ends of its time are within the limits. -/
theorem Constraints.check_eq_ok_iff {c : Constraints} {key : SecretKey} {record : SecretRecord} {now : Int64} :
    c.check key record now = .ok () ↔ key.slot < c.maxSlots ∧ record.payload.length ≤ c.maxPayload.toNat ∧
      now < record.expiration ∧ record.expiration ≤ c.latestExpiration now := by
  unfold check
  by_cases hslot : c.maxSlots ≤ key.slot
  · simp [hslot, UInt64.not_lt.2 hslot]
  · by_cases hsize : c.maxPayload.toNat < record.payload.length
    · simp [hslot, hsize, Nat.not_le.2 hsize]
    · by_cases hexpired : record.expiration ≤ now
      · simp [hslot, hsize, hexpired, Int64.not_lt.2 hexpired]
      · by_cases hdistant : c.latestExpiration now < record.expiration
        · simp [hslot, hsize, hexpired, hdistant, Int64.not_le.2 hdistant]
        · simp [hslot, hsize, hexpired, hdistant, UInt64.not_le.1 hslot, Nat.not_lt.1 hsize, Int64.not_le.1 hexpired,
            Int64.not_lt.1 hdistant]

/-- What the limits refuse, they refuse for the slot, the size, or one end of the time. -/
theorem Constraints.mem_of_check_eq_error {c : Constraints} {key : SecretKey} {record : SecretRecord} {now : Int64}
    {e : StorageError} (h : c.check key record now = .error e) :
    e ∈ [.slotTooBig, .payloadTooBig, .expired, .expirationTooLong] := by
  unfold check at h
  repeat' split at h
  all_goals cases h
  all_goals decide

namespace Store

variable {s s' : Store} {now : Int64} {w : SecretWrite} {p : Place}

@[simp] theorem constraints_insert (s : Store) (w : SecretWrite) : (s.insert w).constraints = s.constraints := rfl

@[simp] theorem constraints_purge (s : Store) (now : Int64) : (s.purge now).constraints = s.constraints := rfl

/-- A write replaces what its place holds, and nothing else. -/
theorem kept?_insert (s : Store) (w : SecretWrite) (p : Place) :
    (s.insert w).kept? p = if w.place = p then some w else s.kept? p :=
  w.find?_insertInto s.writes p

/-- A purge takes away what has expired, and nothing else. -/
theorem kept?_purge (s : Store) (now : Int64) (p : Place) :
    (s.purge now).kept? p = (s.kept? p).filter fun w => w.isLive now :=
  find?_filter_of_pairwise s.sorted _ p

/-- A record within the limits has not expired. -/
theorem lt_expiration_of_check {c : Constraints} {key : SecretKey} {record : SecretRecord}
    (h : c.check key record now = .ok ()) : now < record.expiration :=
  (Constraints.check_eq_ok_iff.1 h).2.2.1

/-- What the limits refuse, a store refuses for the same reason. -/
theorem put_of_check_error {e : StorageError} (h : s.constraints.check w.key w.record now = .error e) :
    s.put now w = .error e := by
  rw [put, h]
  rfl

/-- A write is accepted exactly if it is within the limits, signed by its owner and newer than what its place holds. -/
theorem put_eq_ok_iff : s.put now w = .ok s' ↔
    s.constraints.check w.key w.record now = .ok () ∧ w.isAuthorised = true ∧
      (∀ held ∈ s.kept? w.place, held.key.version < w.key.version) ∧ s' = s.insert w := by
  unfold put
  generalize s.constraints.check w.key w.record now = limits
  generalize w.isAuthorised = authorised
  generalize s.insert w = inserted
  cases limits with
  | error e => simp [bind, Except.bind]
  | ok _ =>
    cases authorised with
    | false => simp [bind, Except.bind, throw, throwThe, MonadExceptOf.throw]
    | true =>
      cases hkept : s.kept? w.place with
      | none => simp [bind, Except.bind, pure, Except.pure, eq_comm]
      | some held =>
        by_cases hnew : held.key.version < w.key.version
        · have hle : ¬ w.key.version ≤ held.key.version := UInt64.not_le.2 hnew
          simp [bind, Except.bind, pure, Except.pure, hle, hnew, eq_comm]
        · have hle : w.key.version ≤ held.key.version := UInt64.not_lt.1 hnew
          simp [bind, Except.bind, throw, throwThe, MonadExceptOf.throw, hle, hnew]

/-- A write with the signature of its owner is refused by the limits, or for its version. -/
theorem mem_of_put_eq_error {e : StorageError} (hauthorised : w.isAuthorised = true) (h : s.put now w = .error e) :
    e ∈ [.slotTooBig, .payloadTooBig, .expired, .expirationTooLong, .versionTooLow] := by
  unfold put at h
  rw [hauthorised] at h
  cases hlimits : s.constraints.check w.key w.record now with
  | error e' =>
    rw [hlimits] at h
    cases h
    exact List.mem_append_left [.versionTooLow] (Constraints.mem_of_check_eq_error hlimits)
  | ok _ =>
    rw [hlimits] at h
    cases hkept : s.kept? w.place with
    | none =>
      rw [hkept] at h
      cases h
    | some held =>
      rw [hkept] at h
      by_cases hold : w.key.version ≤ held.key.version
      · have he : e = .versionTooLow := by
          simpa [bind, Except.bind, throw, throwThe, MonadExceptOf.throw, hold, eq_comm] using h
        rw [he]
        decide
      · simp [bind, Except.bind, pure, Except.pure, hold] at h

end Store

end SecretsGateway
