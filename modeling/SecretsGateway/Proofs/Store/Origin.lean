import SecretsGateway.Proofs.Store.Owner

/-!
# Where entries come from

A use of a store brings in at most the write that it puts, and nothing ever changes an entry (`Store.mem_writes_use`). So
every entry of a store that has been used from the start is a write that was accepted some time before, as it stands
(`Store.exists_put_of_mem_after`). It was accepted within the limits and with the signature of its owner, and there is room
for no more entries of an owner than there are slots (`Store.entries_signed`).
-/

namespace SecretsGateway

variable {w : SecretWrite}

/-- The write is within the limits that do not depend on the time, and signed by its owner. -/
structure Constraints.Permits (c : Constraints) (w : SecretWrite) : Prop where
  slot : w.key.slot < c.maxSlots
  payload : w.record.payload.length ≤ c.maxPayload.toNat
  signed : (WriteEnvelope.ofWrite w.key w.record).recover w.signature = .ok w.key.owner

/-- A write is signed by its owner exactly if the owner is recovered from it. -/
theorem SecretWrite.isAuthorised_iff :
    w.isAuthorised = true ↔ (WriteEnvelope.ofWrite w.key w.record).recover w.signature = .ok w.key.owner := by
  unfold isAuthorised
  cases (WriteEnvelope.ofWrite w.key w.record).recover w.signature with
  | error e => simp
  | ok signer => simp

namespace Store

variable {s : Store} {u : Use} {uses : List Use} {a : Address}

/-- What a place holds is for that place. -/
theorem place_of_kept? {p : Place} (h : s.kept? p = some w) : w.place = p := by
  unfold kept? at h
  have hfound := List.find?_some h
  exact of_decide_eq_true hfound

/-- After a use there is no entry but those from before and the write that has just been accepted. -/
theorem mem_writes_use (h : w ∈ (s.use u).writes) :
    w ∈ s.writes ∨ u.access = .put w ∧ ∃ s', s.put u.now w = .ok s' := by
  obtain ⟨now, access⟩ := u
  cases access with
  | get p => exact .inl h
  | list owner => exact .inl h
  | purge => exact .inl (List.mem_filter.1 h).1
  | put v =>
    cases hput : s.put now v with
    | error e =>
      rw [use_of_put_error hput] at h
      exact .inl h
    | ok s' =>
      rw [use_of_put_ok hput] at h
      obtain ⟨-, -, -, rfl⟩ := put_eq_ok_iff.1 hput
      rcases SecretWrite.eq_or_mem_of_mem_insertInto h with rfl | hw
      · exact .inr ⟨rfl, _, hput⟩
      · exact .inl hw

private theorem constraints_use (s : Store) (u : Use) : (s.use u).constraints = s.constraints := by
  obtain ⟨now, access⟩ := u
  cases access with
  | put w => exact s.constraints_use_put now w
  | get p => rfl
  | list owner => rfl
  | purge => rfl

private theorem constraints_after (s : Store) (uses : List Use) : (s.after uses).constraints = s.constraints := by
  induction uses generalizing s with
  | nil => rfl
  | cons u uses ih => exact (ih (s.use u)).trans (s.constraints_use u)

/-- An entry was there from the start, or it was accepted by one of the uses. -/
private theorem mem_writes_after (h : w ∈ (s.after uses).writes) :
    w ∈ s.writes ∨ ∃ earlier now later, uses = earlier ++ ⟨now, .put w⟩ :: later ∧
      ∃ s', (s.after earlier).put now w = .ok s' := by
  induction uses generalizing s with
  | nil => exact .inl h
  | cons u uses ih =>
    rcases ih h with hw | ⟨earlier, now, later, rfl, hput⟩
    · rcases mem_writes_use hw with hw | ⟨haccess, hput⟩
      · exact .inl hw
      · obtain ⟨now, access⟩ := u
        cases haccess
        exact .inr ⟨[], now, uses, rfl, hput⟩
    · exact .inr ⟨u :: earlier, now, later, rfl, hput⟩

/-- Every entry of a store that has been used from the start was accepted by one of the uses. -/
theorem exists_put_of_mem_after {c : Constraints} (h : w ∈ ((fresh c).after uses).writes) :
    ∃ earlier now later, uses = earlier ++ ⟨now, .put w⟩ :: later ∧
      ∃ s', ((fresh c).after earlier).put now w = .ok s' :=
  (mem_writes_after h).resolve_left List.not_mem_nil

private theorem permits_of_put {now : Int64} {s' : Store} (h : s.put now w = .ok s') : s.constraints.Permits w := by
  obtain ⟨hlimits, hauthorised, -, -⟩ := put_eq_ok_iff.1 h
  obtain ⟨hslot, hpayload, -, -⟩ := Constraints.check_eq_ok_iff.1 hlimits
  exact ⟨hslot, hpayload, SecretWrite.isAuthorised_iff.1 hauthorised⟩

/-- All entries of a store that has been used from the start are permitted. -/
private theorem permits_of_mem_after {c : Constraints} (h : w ∈ ((fresh c).after uses).writes) : c.Permits w := by
  obtain ⟨earlier, now, later, -, s', hput⟩ := exists_put_of_mem_after h
  have hpermits := permits_of_put hput
  rwa [constraints_after] at hpermits

/-- The entries of an owner. -/
def owned (s : Store) (a : Address) : List SecretWrite := s.writes.filter fun w => w.key.owner == a

theorem mem_owned_iff : w ∈ s.owned a ↔ w ∈ s.writes ∧ w.key.owner = a := by
  rw [owned, List.mem_filter, beq_iff_eq]

/-- The slots of an owner's entries increase. -/
theorem pairwise_slots (s : Store) (a : Address) : (s.owned a).Pairwise fun v w => v.key.slot < w.key.slot := by
  have hsorted : (s.owned a).Pairwise fun v w => v.place < w.place := s.sorted.filter _
  refine hsorted.imp_of_mem ?_
  intro v w hv hw hlt
  have hsame : v.key.owner = w.key.owner := (mem_owned_iff.1 hv).2.trans (mem_owned_iff.1 hw).2.symm
  rcases hlt with hbytes | ⟨-, hslot⟩
  · have hirrefl : v.key.owner.bytes < w.key.owner.bytes := hbytes
    rw [hsame] at hirrefl
    exact absurd hirrefl (List.lt_irrefl _)
  · exact hslot

/-- There is no room for more increasing numbers than lie between two bounds. -/
private theorem length_le_of_increasing {ns : List Nat} {low high : Nat} (hincreasing : ns.Pairwise (· < ·))
    (hlow : ∀ n ∈ ns, low ≤ n) (hhigh : ∀ n ∈ ns, n < high) : ns.length ≤ high - low := by
  induction ns generalizing low with
  | nil => exact Nat.zero_le _
  | cons n ns ih =>
    obtain ⟨hfirst, hrest⟩ := List.pairwise_cons.1 hincreasing
    have hn := hlow n List.mem_cons_self
    have hn' := hhigh n List.mem_cons_self
    have hlength := ih hrest hfirst fun m hm => hhigh m (List.mem_cons_of_mem n hm)
    rw [List.length_cons]
    omega

/-- If all entries of an owner lie in slots below a bound, there are no more of them than slots. -/
private theorem length_owned_le {bound : UInt64} (h : ∀ w ∈ s.owned a, w.key.slot < bound) :
    (s.owned a).length ≤ bound.toNat := by
  have hincreasing : ((s.owned a).map fun w => w.key.slot.toNat).Pairwise (· < ·) :=
    List.pairwise_map.2 ((s.pairwise_slots a).imp UInt64.lt_iff_toNat_lt.1)
  have hbelow : ∀ n ∈ (s.owned a).map fun w => w.key.slot.toNat, n < bound.toNat := by
    intro n hn
    obtain ⟨w, hw, rfl⟩ := List.mem_map.1 hn
    exact UInt64.lt_iff_toNat_lt.1 (h w hw)
  have hle := length_le_of_increasing hincreasing (fun n _ => Nat.zero_le n) hbelow
  rwa [List.length_map] at hle

/-- The rows that an owner is told are those of the owner's entries that still count. -/
theorem list_eq_owned (s : Store) (now : Int64) (a : Address) :
    s.list now a = ((s.owned a).filter fun w => w.isLive now).map SecretWrite.row := by
  rw [list, owned, List.filter_filter]
  simp only [Bool.and_comm]

private theorem length_list_le (s : Store) (now : Int64) (a : Address) : (s.list now a).length ≤ (s.owned a).length := by
  rw [list_eq_owned, List.length_map]
  exact List.length_filter_le _ _

theorem exists_of_mem_list {now : Int64} {row : SecretRow} (h : row ∈ s.list now a) :
    ∃ w ∈ s.writes, w.key.owner = a ∧ w.isLive now = true ∧ w.row = row := by
  rw [list_eq_owned] at h
  obtain ⟨w, hw, rfl⟩ := List.mem_map.1 h
  obtain ⟨howned, hlive⟩ := List.mem_filter.1 hw
  obtain ⟨hmem, howner⟩ := mem_owned_iff.1 howned
  exact ⟨w, hmem, howner, hlive, rfl⟩

/-- Whatever is asked of a store from the start, and whatever its clock shows: what a place holds is signed by the owner of
the place, over exactly this place and what the place holds, and its slot and its payload are within the limits. No owner
has more entries than there are slots. An owner is never told of more rows than that, and every row is that of a write which
the owner has signed and which was accepted before. -/
theorem entries_signed (c : Constraints) (uses : List Use) :
    let s := (fresh c).after uses
    (∀ p w, s.kept? p = some w → w.place = p ∧
      (WriteEnvelope.mk p.owner p.slot w.record.payload w.key.version w.record.expiration).recover w.signature = .ok p.owner ∧
      p.slot < c.maxSlots ∧ w.record.payload.length ≤ c.maxPayload.toNat) ∧
    (∀ a, (s.writes.filter fun w => w.key.owner == a).length ≤ c.maxSlots.toNat) ∧
    ∀ now a, (s.list now a).length ≤ c.maxSlots.toNat ∧
      ∀ row ∈ s.list now a, ∃ w earlier t later, uses = earlier ++ ⟨t, .put w⟩ :: later ∧
        (∃ s', ((fresh c).after earlier).put t w = .ok s') ∧ w.key.owner = a ∧ w.row = row ∧
        (WriteEnvelope.mk a row.slot w.record.payload row.version row.expiration).recover w.signature = .ok a := by
  intro s
  have hroom : ∀ a, (s.owned a).length ≤ c.maxSlots.toNat := fun a =>
    length_owned_le fun w hw => (permits_of_mem_after (mem_owned_iff.1 hw).1).slot
  refine ⟨?_, hroom, ?_⟩
  · intro p w hkept
    have hplace := place_of_kept? hkept
    have hpermits := permits_of_mem_after (List.mem_of_find?_eq_some hkept)
    subst hplace
    exact ⟨rfl, hpermits.signed, hpermits.slot, hpermits.payload⟩
  · intro now a
    refine ⟨Nat.le_trans (s.length_list_le now a) (hroom a), fun row hrow => ?_⟩
    obtain ⟨w, hw, rfl, -, rfl⟩ := exists_of_mem_list hrow
    obtain ⟨earlier, t, later, huses, hput⟩ := exists_put_of_mem_after hw
    exact ⟨w, earlier, t, later, huses, hput, rfl, rfl, (permits_of_mem_after hw).signed⟩

end Store

end SecretsGateway
