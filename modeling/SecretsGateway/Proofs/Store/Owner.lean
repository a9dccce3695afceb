import SecretsGateway.Proofs.Store.History

/-!
# What an owner has in a store

Two stores agree on an owner if they hold the same at all places of the owner (`Store.AgreeOn`). Such stores tell the owner
the same, accept the same writes of the owner or refuse them for the same reason, and still agree afterwards. Purges do not
change that, and neither do the writes of other owners.
-/

namespace SecretsGateway

private theorem find?_of_mem {l : List SecretWrite} (h : l.Pairwise fun a b => a.place < b.place) {w : SecretWrite}
    (hw : w ∈ l) : l.find? (fun u => u.place = w.place) = some w := by
  induction l with
  | nil => cases hw
  | cons v rest ih =>
    obtain ⟨hv, hrest⟩ := List.pairwise_cons.1 h
    rcases List.mem_cons.1 hw with rfl | hw
    · exact List.find?_cons_of_pos (decide_eq_true rfl)
    · have hne : ¬ v.place = w.place := by
        intro heq
        have hlt := hv w hw
        rw [heq] at hlt
        exact Place.lt_irrefl _ hlt
      rw [List.find?_cons_of_neg (by simpa using hne)]
      exact ih hrest hw

namespace Store

/-- The stores have the same limits, and hold the same at all places of the owner. -/
structure AgreeOn (a : Address) (s s' : Store) : Prop where
  constraints : s.constraints = s'.constraints
  kept : ∀ slot, s.kept? ⟨a, slot⟩ = s'.kept? ⟨a, slot⟩

variable {a : Address} {s s' : Store} {now : Int64} {w : SecretWrite}

/-- An entry of a store is what its place holds. -/
theorem mem_writes_iff : w ∈ s.writes ↔ s.kept? w.place = some w :=
  ⟨find?_of_mem s.sorted, fun h => List.mem_of_find?_eq_some h⟩

/-- What is accepted depends on the limits and on what the place holds. -/
private theorem put_congr (hconstraints : s.constraints = s'.constraints) (hkept : s.kept? w.place = s'.kept? w.place) :
    ((s.put now w).map fun _ => ()) = (s'.put now w).map fun _ => () := by
  unfold put
  rw [hconstraints, hkept]
  cases s'.constraints.check w.key w.record now with
  | error e => rfl
  | ok _ =>
    cases w.isAuthorised with
    | false => rfl
    | true =>
      cases s'.kept? w.place with
      | none => rfl
      | some held => by_cases hold : w.key.version ≤ held.key.version <;> simp [hold] <;> rfl

theorem constraints_use_put (s : Store) (now : Int64) (w : SecretWrite) :
    (s.use ⟨now, .put w⟩).constraints = s.constraints := by
  cases hput : s.put now w with
  | error e => rw [use_of_put_error hput]
  | ok s' =>
    obtain ⟨-, -, -, rfl⟩ := put_eq_ok_iff.1 hput
    rw [use_of_put_ok hput, constraints_insert]

namespace AgreeOn

private theorem kept_place (h : AgreeOn a s s') {p : Place} (hp : p.owner = a) : s.kept? p = s'.kept? p := by
  subst hp
  exact h.kept p.slot

theorem get?_eq (h : AgreeOn a s s') (now : Int64) (slot : UInt64) : s.get? now ⟨a, slot⟩ = s'.get? now ⟨a, slot⟩ := by
  rw [get?, get?, h.kept]

private theorem mem_filter (h : AgreeOn a s s') (u : SecretWrite)
    (hu : u ∈ s.writes.filter fun w => w.key.owner == a && w.isLive now) :
    u ∈ s'.writes.filter fun w => w.key.owner == a && w.isLive now := by
  obtain ⟨hmem, hcond⟩ := List.mem_filter.1 hu
  have howner : u.place.owner = a := eq_of_beq (Bool.and_eq_true_iff.1 hcond).1
  refine List.mem_filter.2 ⟨?_, hcond⟩
  rw [mem_writes_iff, ← h.kept_place howner]
  exact mem_writes_iff.1 hmem

private theorem symm (h : AgreeOn a s s') : AgreeOn a s' s := ⟨h.constraints.symm, fun slot => (h.kept slot).symm⟩

/-- The owner is told the same. -/
theorem list_eq (h : AgreeOn a s s') (now : Int64) : s.list now a = s'.list now a := by
  let keep : SecretWrite → Bool := fun w => w.key.owner == a && w.isLive now
  have hsorted := s.sorted.filter keep
  have hsorted' := s'.sorted.filter keep
  have hnodup : ∀ {l : List SecretWrite}, l.Pairwise (fun a b => a.place < b.place) → l.Nodup := by
    intro l hl
    refine hl.imp ?_
    rintro b c hlt rfl
    exact Place.lt_irrefl _ hlt
  have hperm : (s.writes.filter keep).Perm (s'.writes.filter keep) :=
    (List.perm_ext_iff_of_nodup (hnodup hsorted) (hnodup hsorted')).2 fun u => ⟨h.mem_filter u, h.symm.mem_filter u⟩
  -- both are in order, and nothing comes both before and after another entry
  have hsame : s.writes.filter keep = s'.writes.filter keep :=
    hperm.eq_of_pairwise (fun b c _ _ hlt hgt => absurd (Place.lt_trans hlt hgt) (Place.lt_irrefl _)) hsorted hsorted'
  exact congrArg (List.map SecretWrite.row) hsame

/-- A write of the owner is accepted by both, or refused for the same reason. -/
theorem put_eq (h : AgreeOn a s s') (hw : w.key.owner = a) (now : Int64) :
    ((s.put now w).map fun _ => ()) = (s'.put now w).map fun _ => () :=
  put_congr h.constraints (h.kept_place hw)

/-- After a write of the owner they still agree. -/
theorem use_put (h : AgreeOn a s s') (hw : w.key.owner = a) (now : Int64) :
    AgreeOn a (s.use ⟨now, .put w⟩) (s'.use ⟨now, .put w⟩) := by
  constructor
  · rw [constraints_use_put, constraints_use_put, h.constraints]
  · intro slot
    have hresult := h.put_eq hw now
    cases hput : s.put now w with
    | error e =>
      rw [hput] at hresult
      cases hput' : s'.put now w with
      | error e' =>
        rw [use_of_put_error hput, use_of_put_error hput']
        exact h.kept slot
      | ok s₁' =>
        rw [hput'] at hresult
        cases hresult
    | ok s₁ =>
      rw [hput] at hresult
      cases hput' : s'.put now w with
      | error e' =>
        rw [hput'] at hresult
        cases hresult
      | ok s₁' =>
        obtain ⟨-, -, -, rfl⟩ := put_eq_ok_iff.1 hput
        obtain ⟨-, -, -, rfl⟩ := put_eq_ok_iff.1 hput'
        rw [use_of_put_ok hput, use_of_put_ok hput', kept?_insert, kept?_insert, h.kept]

/-- A write of another owner does not matter. -/
theorem use_put_other (h : AgreeOn a s s') (hw : w.key.owner ≠ a) (now : Int64) :
    AgreeOn a (s.use ⟨now, .put w⟩) s' := by
  constructor
  · rw [constraints_use_put, h.constraints]
  · intro slot
    cases hput : s.put now w with
    | error e =>
      rw [use_of_put_error hput]
      exact h.kept slot
    | ok s₁ =>
      obtain ⟨-, -, -, rfl⟩ := put_eq_ok_iff.1 hput
      have hplace : w.place ≠ ⟨a, slot⟩ := fun heq => hw (congrArg Place.owner heq)
      rw [use_of_put_ok hput, kept?_insert, if_neg hplace]
      exact h.kept slot

theorem purge (h : AgreeOn a s s') (now : Int64) : AgreeOn a (s.purge now) (s'.purge now) := by
  constructor
  · rw [constraints_purge, constraints_purge, h.constraints]
  · intro slot
    rw [kept?_purge, kept?_purge, h.kept]

end AgreeOn

end Store

end SecretsGateway
