import SecretsGateway.Proofs.Store.Kept

/-!
# What a store shows of its secrets

The outline of a write is all of it but the bytes of the secret and of the signature. A store tells an owner nothing that is
not in the outlines of its entries (`Store.SameOutline.list_eq`), and writes of one outline, once they are accepted, leave
stores of one outline behind (`Store.SameOutline.put`).
-/

namespace SecretsGateway

/-- All of a write but the bytes of the secret and of the signature. -/
def SecretWrite.outline (w : SecretWrite) : SecretKey × Int64 := (w.key, w.record.expiration)

namespace SecretWrite

variable {w w' : SecretWrite}

private theorem place_of_outline (h : w.outline = w'.outline) : w.place = w'.place := congrArg (fun o => o.1.place) h

theorem event_of_outline (h : w.outline = w'.outline) : w.event = w'.event :=
  congrArg (fun o : SecretKey × Int64 => Event.stored o.1.owner o.1.slot o.1.version) h

/-- Where a write is put among others depends on outlines alone. -/
private theorem map_outline_insertInto (h : w.outline = w'.outline) {l l' : List SecretWrite}
    (hl : l.map outline = l'.map outline) : (w.insertInto l).map outline = (w'.insertInto l').map outline := by
  induction l generalizing l' with
  | nil =>
    obtain rfl := List.map_eq_nil_iff.1 hl.symm
    simp only [insertInto, List.map_cons, h]
  | cons v rest ih =>
    obtain ⟨v', rest', rfl, hv, hrest⟩ := List.map_eq_cons_iff.1 hl.symm
    have hw := place_of_outline h
    have hplace := place_of_outline hv.symm
    simp only [insertInto, hw, hplace]
    split
    · simp only [List.map_cons, h, hv, hrest]
    · split
      · simp only [List.map_cons, hv, ih hrest.symm]
      · simp only [List.map_cons, h, hrest]

end SecretWrite

namespace Store

/-- The stores have the same limits, and their entries differ in nothing but the bytes of secrets and of signatures. -/
structure SameOutline (s s' : Store) : Prop where
  constraints : s.constraints = s'.constraints
  writes : s.writes.map SecretWrite.outline = s'.writes.map SecretWrite.outline

namespace SameOutline

variable {s s' : Store} {w w' : SecretWrite} {now : Int64}

/-- The owner is told the same. -/
theorem list_eq (h : SameOutline s s') (now : Int64) (owner : Address) : s.list now owner = s'.list now owner := by
  let told : SecretKey × Int64 → Option SecretRow := fun o =>
    if o.1.owner == owner && decide (now < o.2) then some ⟨o.1.slot, o.1.version, o.2⟩ else none
  have hlist : ∀ s : Store, s.list now owner = (s.writes.map SecretWrite.outline).filterMap told := by
    intro s
    rw [list, List.filterMap_map, ← List.filterMap_eq_map, List.filterMap_filter]
    rfl
  rw [hlist, hlist, h.writes]

/-- Writes of one outline, if they are accepted, leave stores of one outline behind. -/
theorem put (h : SameOutline s s') (hw : w.outline = w'.outline) {s₁ s₁' : Store} (hput : s.put now w = .ok s₁)
    (hput' : s'.put now w' = .ok s₁') : SameOutline s₁ s₁' := by
  obtain ⟨-, -, -, rfl⟩ := put_eq_ok_iff.1 hput
  obtain ⟨-, -, -, rfl⟩ := put_eq_ok_iff.1 hput'
  exact ⟨h.constraints, SecretWrite.map_outline_insertInto hw h.writes⟩

end SameOutline

end Store

end SecretsGateway
