import Mathlib.Data.List.Basic
import SecretsGateway.Proofs.Store.Readers

/-!
# What a purge leaves unseen

A purge forgets exactly the entries that have expired by then. Whoever reads at that time or later would not have been shown
any of them, at a single place or among the rows of an owner (`Store.get?_purge_of_le`, `Store.list_purge_of_le`), so from
then on no run of readings tells whether the purge has happened (`Store.purge_unseen`). A reading before the time of the
purge does tell, and so does a write (`Store.versions_increasing_iff`).
-/

namespace SecretsGateway

/-- The access only reads. -/
def Access.reads : Access → Bool
  | .get _ | .list _ => true
  | .put _ | .purge => false

private theorem SecretWrite.isLive_of_le {w : SecretWrite} {t now : Int64} (h : t ≤ now) (hlive : w.isLive now = true) :
    w.isLive t = true :=
  decide_eq_true (Int64.lt_of_le_of_lt h (of_decide_eq_true hlive))

namespace Store

/-- What a store says to an access. -/
inductive Answer where
  | accepted
  | refused (reason : StorageError)
  | found (entry : Option SecretWrite)
  | rows (rows : List SecretRow)
  /-- So many entries have been forgotten. -/
  | forgotten (count : Nat)
  deriving DecidableEq

/-- The answer to a use. -/
def answer (s : Store) (u : Use) : Answer :=
  match u.access with
  | .put w =>
    match s.put u.now w with
    | .ok _ => .accepted
    | .error e => .refused e
  | .get p => .found (s.get? u.now p)
  | .list a => .rows (s.list u.now a)
  | .purge => .forgotten (s.purgeCount u.now)

/-- The answers to some uses, one after the other. -/
def answers (s : Store) : List Use → List Answer
  | [] => []
  | u :: uses => s.answer u :: (s.use u).answers uses

variable {s s' : Store} {t now : Int64} {a : Address} {p : Place} {u : Use} {uses : List Use} {w : SecretWrite}

private theorem eq_of_writes (hconstraints : s.constraints = s'.constraints) (hwrites : s.writes = s'.writes) : s = s' := by
  cases s
  cases s'
  cases hconstraints
  cases hwrites
  rfl

private theorem mem_writes_purge : w ∈ (s.purge t).writes ↔ w ∈ s.writes ∧ ¬ w.record.expiration ≤ t := by
  rw [Int64.not_le]
  exact List.mem_filter.trans (and_congr_right fun _ => decide_eq_true_iff)

private theorem size_purge_add (s : Store) (t : Int64) :
    (s.purge t).size + (s.writes.filter fun w => w.record.expiration ≤ t).length = s.size := by
  have hexpired : (s.writes.filter fun w => decide (w.record.expiration ≤ t)) = s.writes.filter fun w => !w.isLive t := by
    refine List.filter_congr fun w _ => ?_
    rw [SecretWrite.isLive, ← decide_not]
    exact decide_eq_decide.2 Int64.not_lt.symm
  rw [hexpired]
  exact (List.length_eq_length_filter_add _).symm

/-- A purge forgets nothing that a later one would leave. -/
private theorem purge_purge_of_le (h : t ≤ now) : (s.purge t).purge now = s.purge now := by
  refine eq_of_writes rfl ?_
  change (s.writes.filter fun w => w.isLive t).filter (fun w => w.isLive now) = s.writes.filter fun w => w.isLive now
  rw [List.filter_filter]
  refine List.filter_congr fun w _ => ?_
  rw [Bool.eq_iff_iff, Bool.and_eq_true]
  exact and_iff_left_of_imp (SecretWrite.isLive_of_le h)

theorem get?_purge_of_le (h : t ≤ now) : (s.purge t).get? now p = s.get? now p := by
  ext w
  simp only [get?_eq_some_iff, mem_writes_purge]
  constructor
  · rintro ⟨⟨hmem, -⟩, hplace, hlive⟩
    exact ⟨hmem, hplace, hlive⟩
  · rintro ⟨hmem, hplace, hlive⟩
    exact ⟨⟨hmem, Int64.not_le.2 (Int64.lt_of_le_of_lt h hlive)⟩, hplace, hlive⟩

theorem list_purge_of_le (h : t ≤ now) : (s.purge t).list now a = s.list now a := by
  rw [list, list, purge, List.filter_filter]
  refine congrArg (List.map SecretWrite.row) (List.filter_congr fun w _ => ?_)
  rw [Bool.eq_iff_iff, Bool.and_eq_true]
  exact and_iff_left_of_imp fun hshown => SecretWrite.isLive_of_le h (Bool.and_eq_true_iff.1 hshown).2

private theorem use_of_reads (h : u.access.reads = true) : s.use u = s := by
  obtain ⟨now, access⟩ := u
  cases access with
  | get p => rfl
  | list a => rfl
  | put w => cases h
  | purge => cases h

private theorem answer_purge_of_le (hreads : u.access.reads = true) (h : t ≤ u.now) : (s.purge t).answer u = s.answer u := by
  obtain ⟨now, access⟩ := u
  cases access with
  | get p => exact congrArg Answer.found (get?_purge_of_le h)
  | list a => exact congrArg Answer.rows (list_purge_of_le h)
  | put w => cases hreads
  | purge => cases hreads

private theorem answers_purge_of_le (h : ∀ u ∈ uses, u.access.reads = true ∧ t ≤ u.now) :
    (s.purge t).answers uses = s.answers uses := by
  induction uses with
  | nil => rfl
  | cons u uses ih =>
    obtain ⟨⟨hreads, hle⟩, hrest⟩ := List.forall_mem_cons.1 h
    rw [answers, answers, answer_purge_of_le hreads hle, use_of_reads hreads, use_of_reads hreads, ih hrest]

/-- A purge at a time forgets exactly the entries that have expired by then, and leaves the limits and all other entries as they
are. Its count is the number of these entries, by which the store has become smaller. A second purge at the same time forgets
nothing more. From that time on, whatever is read, in whatever order, by whomever and as often as one likes, every answer is
the one that would have been given without the purge. -/
theorem purge_unseen (s : Store) (t : Int64) :
    (∀ w, w ∈ (s.purge t).writes ↔ w ∈ s.writes ∧ ¬ w.record.expiration ≤ t) ∧
    (s.purge t).constraints = s.constraints ∧
    s.purgeCount t = (s.writes.filter fun w => w.record.expiration ≤ t).length ∧
    (s.purge t).size + s.purgeCount t = s.size ∧
    (s.purge t).purge t = s.purge t ∧ (s.purge t).purgeCount t = 0 ∧
    ∀ readings : List Use, (∀ u ∈ readings, u.access.reads = true ∧ t ≤ u.now) →
      (s.purge t).answers readings = s.answers readings := by
  have hsize := s.size_purge_add t
  have hagain : (s.purge t).purge t = s.purge t := purge_purge_of_le (Int64.le_refl t)
  have hcount : s.purgeCount t = (s.writes.filter fun w => w.record.expiration ≤ t).length := by
    rw [purgeCount]
    omega
  refine ⟨fun w => mem_writes_purge, rfl, hcount, ?_, hagain, ?_, fun readings => answers_purge_of_le⟩
  · rw [hcount, hsize]
  · rw [purgeCount, hagain, Nat.sub_self]

namespace Purged

/-- An entry that counts up to a time. -/
def entry (slot : UInt64) (expiration : Int64) : SecretWrite := ⟨⟨.five, slot, 1⟩, ⟨expiration, [7]⟩, []⟩

/-- Two entries, of which one has expired at the time 10. -/
def sample : Store := ((fresh .standard).insert (entry 1 10)).insert (entry 2 11)

/-- Readings at the time 10 and later, not in the order of time. -/
def readings : List Use :=
  [⟨11, .list .five⟩, ⟨10, .get ⟨.five, 1⟩⟩, ⟨10, .get ⟨.five, 2⟩⟩, ⟨10, .list .five⟩]

/-- The entry that expires at the time of the purge is forgotten, the other one is still shown, and without the purge the same
would be shown. A reading before that time would show both. -/
theorem unseen_sample : (∀ u ∈ readings, u.access.reads = true ∧ (10 : Int64) ≤ u.now) ∧
    sample.purgeCount 10 = 1 ∧ (sample.purge 10).size = 1 ∧
    (sample.purge 10).answers readings = sample.answers readings ∧
    sample.answers readings = [.rows [], .found none, .found (some (entry 2 11)), .rows [⟨2, 1, 11⟩]] ∧
    (sample.purge 10).answer ⟨9, .list .five⟩ ≠ sample.answer ⟨9, .list .five⟩ := by
  have hreadings : ∀ u ∈ readings, u.access.reads = true ∧ (10 : Int64) ≤ u.now := by decide
  obtain ⟨-, -, -, -, -, -, hunseen⟩ := purge_unseen sample 10
  exact ⟨hreadings, by decide, by decide, hunseen readings hreadings, by decide, by decide⟩

end Purged

end Store

end SecretsGateway
