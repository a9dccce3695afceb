import Mathlib.Data.List.Induction
import SecretsGateway.Proofs.Store.History

/-!
# What a reader finds

What a store tells about a place, read off its history alone. A place holds the latest write that was accepted for it, unless
a purge has taken it away since (`Store.kept?_after_iff`), and as long as nothing is taken away every write that is accepted
there is newer than those before it (`Store.version_lt_of_acceptedAt`). So a write that has been superseded is never found
again, also not when its successor expires first, unless it is put and accepted once more (`Store.found_iff_latest`).
-/

namespace SecretsGateway

namespace Store

/-- The use at a position puts a write for a place, and it is accepted. -/
def AcceptedAt (s : Store) (p : Place) (uses : List Use) (i : Nat) (w : SecretWrite) : Prop :=
  w.place = p ∧ ∃ now, uses[i]? = some ⟨now, .put w⟩ ∧ ∃ s', (s.after (uses.take i)).put now w = .ok s'

/-- The use at a position is a purge that takes away what a place holds. -/
def RemovedAt (s : Store) (p : Place) (uses : List Use) (i : Nat) : Prop :=
  ∃ now, uses[i]? = some ⟨now, .purge⟩ ∧ ∃ held, (s.after (uses.take i)).kept? p = some held ∧ held.record.expiration ≤ now

variable {c : Constraints} {s : Store} {p : Place} {u : Use} {uses : List Use} {i j : Nat} {w w' : SecretWrite}

private theorem AcceptedAt.lt_length (h : s.AcceptedAt p uses i w) : i < uses.length := by
  obtain ⟨-, now, hat, -⟩ := h
  exact (List.getElem?_eq_some_iff.1 hat).1

private theorem RemovedAt.lt_length (h : s.RemovedAt p uses i) : i < uses.length := by
  obtain ⟨now, hat, -⟩ := h
  exact (List.getElem?_eq_some_iff.1 hat).1

private theorem lt_or_eq_of_lt_length_concat (h : i < (uses ++ [u]).length) : i < uses.length ∨ i = uses.length := by
  rw [List.length_append, List.length_singleton] at h
  omega

private theorem AcceptedAt.unique (h : s.AcceptedAt p uses i w) (h' : s.AcceptedAt p uses i w') : w = w' := by
  obtain ⟨-, now, hat, -⟩ := h
  obtain ⟨-, now', hat', -⟩ := h'
  rw [hat] at hat'
  cases hat'
  rfl

/-- What happens at a position does not depend on what comes later. -/
private theorem acceptedAt_take (h : i < j) : s.AcceptedAt p (uses.take j) i w ↔ s.AcceptedAt p uses i w := by
  rw [AcceptedAt, AcceptedAt, List.getElem?_take_of_lt h, List.take_take, Nat.min_eq_left (Nat.le_of_lt h)]

private theorem removedAt_take (h : i < j) : s.RemovedAt p (uses.take j) i ↔ s.RemovedAt p uses i := by
  rw [RemovedAt, RemovedAt, List.getElem?_take_of_lt h, List.take_take, Nat.min_eq_left (Nat.le_of_lt h)]

private theorem acceptedAt_concat_of_lt (h : i < uses.length) : s.AcceptedAt p (uses ++ [u]) i w ↔ s.AcceptedAt p uses i w := by
  rw [← acceptedAt_take h, List.take_left]

private theorem removedAt_concat_of_lt (h : i < uses.length) : s.RemovedAt p (uses ++ [u]) i ↔ s.RemovedAt p uses i := by
  rw [← removedAt_take h, List.take_left]

private theorem version?_put_eq_some_iff {now : Int64} {v : UInt64} :
    s.version? p ⟨now, .put w⟩ = some v ↔ (∃ s', s.put now w = .ok s') ∧ w.place = p ∧ w.key.version = v := by
  cases hput : s.put now w with
  | error e => simp [version?_of_put_error hput]
  | ok s' => simp [version?_of_put_ok hput]

/-- A write is accepted at the last position exactly if the last use puts it and brings its version in. -/
private theorem acceptedAt_concat_length : s.AcceptedAt p (uses ++ [u]) uses.length w ↔
    u.access = .put w ∧ (s.after uses).version? p u = some w.key.version := by
  rw [AcceptedAt, List.getElem?_concat_length, List.take_left]
  obtain ⟨now, access⟩ := u
  constructor
  · rintro ⟨hplace, now', hat, haccepted⟩
    cases hat
    exact ⟨rfl, version?_put_eq_some_iff.2 ⟨haccepted, hplace, rfl⟩⟩
  · rintro ⟨haccess, hversion⟩
    cases haccess
    obtain ⟨haccepted, hplace, -⟩ := version?_put_eq_some_iff.1 hversion
    exact ⟨hplace, now, rfl, haccepted⟩

private theorem not_acceptedAt_of_version? (h : (s.after uses).version? p u = none) :
    ¬ s.AcceptedAt p (uses ++ [u]) uses.length w := by
  intro hat
  have hversion := (acceptedAt_concat_length.1 hat).2
  rw [h] at hversion
  cases hversion

/-- A purge that leaves an entry where it is has not removed it. -/
private theorem isLive_of_not_removedAt (hpurge : u.access = .purge) (hkept : (s.after uses).kept? p = some w)
    (h : ¬ s.RemovedAt p (uses ++ [u]) uses.length) : w.isLive u.now = true := by
  obtain ⟨now, access⟩ := u
  cases hpurge
  rw [SecretWrite.isLive, decide_eq_true_eq]
  refine Int64.not_le.1 fun hexpired => h ⟨now, List.getElem?_concat_length, w, ?_, hexpired⟩
  rw [List.take_left]
  exact hkept

/-- While nothing is taken away, a place holds a write that is as new as every write that was accepted for it. -/
private theorem exists_kept?_of_acceptedAt (h : s.AcceptedAt p uses i w) (hstays : ∀ k, i < k → ¬ s.RemovedAt p uses k) :
    ∃ held, (s.after uses).kept? p = some held ∧ w.key.version ≤ held.key.version := by
  induction uses using List.reverseRecOn with
  | nil => exact absurd h.lt_length (Nat.not_lt_zero i)
  | append_singleton uses u ih =>
    rw [after_concat]
    have hearlier : i < uses.length → ∃ held, (s.after uses).kept? p = some held ∧ w.key.version ≤ held.key.version := by
      intro hi
      refine ih ((acceptedAt_concat_of_lt hi).1 h) fun k hik hremoved => ?_
      exact hstays k hik ((removedAt_concat_of_lt hremoved.lt_length).2 hremoved)
    have hposition := lt_or_eq_of_lt_length_concat h.lt_length
    -- the last use brings in a newer write, or it is a purge, or it leaves the place as it was
    rcases (s.after uses).use_cases u p with ⟨v, hput, -, -, hversion, hkept, hnewer⟩ | ⟨hpurge, hversion, hkept⟩ |
      ⟨-, hversion, hkept⟩
    · refine ⟨v, hkept, ?_⟩
      rcases hposition with hi | rfl
      · obtain ⟨held, hheld, hle⟩ := hearlier hi
        exact UInt64.le_trans hle (UInt64.le_of_lt (hnewer held hheld))
      · obtain rfl := h.unique (acceptedAt_concat_length.2 ⟨hput, hversion⟩)
        exact UInt64.le_refl _
    · rcases hposition with hi | rfl
      · obtain ⟨held, hheld, hle⟩ := hearlier hi
        have hlive := isLive_of_not_removedAt hpurge hheld (hstays _ hi)
        exact ⟨held, by rw [hkept, hheld, Option.filter_some, if_pos hlive], hle⟩
      · exact absurd h (not_acceptedAt_of_version? hversion)
    · rcases hposition with hi | rfl
      · rw [hkept]
        exact hearlier hi
      · exact absurd h (not_acceptedAt_of_version? hversion)

/-- Of two writes that are accepted for a place the later one is newer, if the place has not been purged in between. -/
theorem version_lt_of_acceptedAt (h : s.AcceptedAt p uses i w) (h' : s.AcceptedAt p uses j w') (hij : i < j)
    (hstays : ∀ k, i < k → k < j → ¬ s.RemovedAt p uses k) : w.key.version < w'.key.version := by
  have hearlier : ∀ k, i < k → ¬ s.RemovedAt p (uses.take j) k := by
    intro k hik hremoved
    have hkj : k < j := Nat.lt_of_lt_of_le hremoved.lt_length (List.length_take_le j uses)
    exact hstays k hik hkj ((removedAt_take hkj).1 hremoved)
  obtain ⟨held, hheld, hle⟩ := exists_kept?_of_acceptedAt ((acceptedAt_take hij).2 h) hearlier
  obtain ⟨rfl, now, -, s', hput⟩ := h'
  obtain ⟨-, -, hnewer, -⟩ := put_eq_ok_iff.1 hput
  exact UInt64.lt_of_le_of_lt hle (hnewer held hheld)

/-- The write is the latest one that was accepted for a place, and it has not been taken away since. -/
def LatestAt (s : Store) (p : Place) (uses : List Use) (i : Nat) (w : SecretWrite) : Prop :=
  s.AcceptedAt p uses i w ∧ (∀ j, i < j → ∀ w', ¬ s.AcceptedAt p uses j w') ∧ ∀ j, i < j → ¬ s.RemovedAt p uses j

private theorem LatestAt.concat (h : s.LatestAt p uses i w) (haccepted : ∀ w', ¬ s.AcceptedAt p (uses ++ [u]) uses.length w')
    (hremoved : ¬ s.RemovedAt p (uses ++ [u]) uses.length) : s.LatestAt p (uses ++ [u]) i w := by
  obtain ⟨hat, hlatest, hstays⟩ := h
  refine ⟨(acceptedAt_concat_of_lt hat.lt_length).2 hat, fun j hij w' hat' => ?_, fun j hij hremoved' => ?_⟩
  · rcases lt_or_eq_of_lt_length_concat hat'.lt_length with hj | rfl
    · exact hlatest j hij w' ((acceptedAt_concat_of_lt hj).1 hat')
    · exact haccepted w' hat'
  · rcases lt_or_eq_of_lt_length_concat hremoved'.lt_length with hj | rfl
    · exact hstays j hij ((removedAt_concat_of_lt hj).1 hremoved')
    · exact hremoved hremoved'

/-- What a place holds, if it held nothing at first, is the latest write that was accepted for it. -/
private theorem exists_latestAt_of_kept? (hempty : s.kept? p = none) (h : (s.after uses).kept? p = some w) :
    ∃ i, s.LatestAt p uses i w := by
  induction uses using List.reverseRecOn with
  | nil =>
    rw [show s.after [] = s from rfl, hempty] at h
    cases h
  | append_singleton uses u ih =>
    rw [after_concat] at h
    rcases (s.after uses).use_cases u p with ⟨v, hput, -, -, hversion, hkept, -⟩ | ⟨hpurge, hversion, hkept⟩ |
      ⟨hother, hversion, hkept⟩
    · rw [hkept] at h
      cases h
      -- the last position has no later one
      have hbehind : ∀ j, uses.length < j → ¬ j < (uses ++ [u]).length := by
        intro j hj hlt
        have hposition := lt_or_eq_of_lt_length_concat hlt
        omega
      refine ⟨uses.length, acceptedAt_concat_length.2 ⟨hput, hversion⟩, fun j hj w' hat => ?_, fun j hj hremoved => ?_⟩
      · exact hbehind j hj hat.lt_length
      · exact hbehind j hj hremoved.lt_length
    · rw [hkept] at h
      obtain ⟨hheld, hlive⟩ := Option.mem_filter_iff.1 h
      obtain ⟨i, hlatest⟩ := ih hheld
      refine ⟨i, hlatest.concat (fun w' => not_acceptedAt_of_version? hversion) ?_⟩
      rintro ⟨now, hat, held, hheld', hexpired⟩
      rw [List.getElem?_concat_length] at hat
      cases hat
      rw [List.take_left, hheld] at hheld'
      cases hheld'
      rw [SecretWrite.isLive, decide_eq_true_eq] at hlive
      exact Int64.not_lt.2 hexpired hlive
    · rw [hkept] at h
      obtain ⟨i, hlatest⟩ := ih h
      refine ⟨i, hlatest.concat (fun w' => not_acceptedAt_of_version? hversion) ?_⟩
      rintro ⟨now, hat, -⟩
      rw [List.getElem?_concat_length] at hat
      cases hat
      exact hother rfl

/-- A place holds exactly the latest write that was accepted for it, as long as that is not taken away. -/
theorem kept?_after_iff (hempty : s.kept? p = none) :
    (s.after uses).kept? p = some w ↔ ∃ i, s.LatestAt p uses i w := by
  constructor
  · exact exists_latestAt_of_kept? hempty
  · rintro ⟨i, hat, hlatest, hstays⟩
    obtain ⟨held, hheld, -⟩ := exists_kept?_of_acceptedAt hat hstays
    obtain ⟨i', hat', hlatest', -⟩ := exists_latestAt_of_kept? hempty hheld
    -- neither of the two comes after the other
    have hsame : i' = i :=
      Nat.le_antisymm (Nat.not_lt.1 fun hlt => hlatest i' hlt held hat') (Nat.not_lt.1 fun hlt => hlatest' i hlt w hat)
    rw [hsame] at hat'
    rw [hheld, hat'.unique hat]

/-- What a reader finds in a store that is used from the start, whatever its clock shows. At a time a place shows the latest
write that was accepted for it, exactly as it was put, provided that no later purge has taken it away and that it has not
expired by then; otherwise the place shows nothing. While nothing is taken away from a place, every write that is accepted
for it is newer than all that were accepted before. Once a write has been superseded it is not shown again at any time,
unless it is put and accepted again after its successor. A use that is neither a purge nor an accepted put changes nothing. -/
theorem found_iff_latest (c : Constraints) (p : Place) (uses : List Use) :
    let start := fresh c
    let s := start.after uses
    (∀ t w, s.get? t p = some w ↔ ∃ i, start.AcceptedAt p uses i w ∧ (∀ j, i < j → ∀ w', ¬ start.AcceptedAt p uses j w') ∧
      (∀ j, i < j → ¬ start.RemovedAt p uses j) ∧ t < w.record.expiration) ∧
    (∀ i w j w', start.AcceptedAt p uses i w → start.AcceptedAt p uses j w' → i < j →
      (∀ k, i < k → k < j → ¬ start.RemovedAt p uses k) → w.key.version < w'.key.version) ∧
    (∀ i w j w', start.AcceptedAt p uses i w → start.AcceptedAt p uses j w' → i < j →
      ∀ t v, s.get? t p = some v → ∃ k, j ≤ k ∧ start.AcceptedAt p uses k v) ∧
    ∀ u : Use, u.access ≠ .purge → (∀ w, u.access = .put w → ∃ e, s.put u.now w = .error e) → s.use u = s := by
  intro start s
  have hempty : start.kept? p = none := rfl
  have hfound : ∀ t w, s.get? t p = some w ↔ (∃ i, start.LatestAt p uses i w) ∧ t < w.record.expiration := by
    intro t w
    rw [get?, Option.filter_eq_some_iff, kept?_after_iff hempty, SecretWrite.isLive, decide_eq_true_eq]
  refine ⟨fun t w => ?_, fun i w j w' => version_lt_of_acceptedAt, fun i w j w' _ hat' _ t v hv => ?_, fun u hpurge hput => ?_⟩
  · rw [hfound]
    constructor
    · rintro ⟨⟨i, hat, hlatest, hstays⟩, hlive⟩
      exact ⟨i, hat, hlatest, hstays, hlive⟩
    · rintro ⟨i, hat, hlatest, hstays, hlive⟩
      exact ⟨⟨i, hat, hlatest, hstays⟩, hlive⟩
  · obtain ⟨⟨k, hat, hlatest, -⟩, -⟩ := (hfound t v).1 hv
    exact ⟨k, Nat.not_lt.1 fun hlt => hlatest j hlt w' hat', hat⟩
  · obtain ⟨now, access⟩ := u
    cases access with
    | get q => rfl
    | list owner => rfl
    | purge => exact absurd rfl hpurge
    | put w =>
      obtain ⟨e, he⟩ := hput w rfl
      exact use_of_put_error he

end Store

end SecretsGateway
