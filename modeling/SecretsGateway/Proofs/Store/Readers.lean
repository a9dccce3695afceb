import SecretsGateway.Proofs.Store.History
import SecretsGateway.Proofs.Store.Origin

/-!
# Two ways to read a store

A reader asks for one place, or for all that an owner has. The second way is a scan of the entries in their order, from the
first place of the owner to the last one (`Store.between`). No place of anybody else lies between these two, whatever slots
the neighbours use (`Place.within_iff`), so a scan meets exactly the entries of the owner, slot after slot
(`Store.between_eq_owned`). Hence the two ways tell the same at any time (`Store.readers_agree`).
-/

namespace SecretsGateway

section Prefix

variable {α : Type} {p : α → Bool} {l : List α}

/-- If whatever comes before a member with a property has it, too, a member without it is followed by such members alone. -/
private theorem eq_false_of_head {a b : α} (h : (a :: l).Pairwise fun a b => p b = true → p a = true) (ha : ¬ p a = true)
    (hb : b ∈ a :: l) : p b = false := by
  rw [Bool.eq_false_iff]
  rcases List.mem_cons.1 hb with rfl | hb
  · exact ha
  · exact fun hpb => ha ((List.pairwise_cons.1 h).1 b hb hpb)

private theorem takeWhile_eq_filter (h : l.Pairwise fun a b => p b = true → p a = true) : l.takeWhile p = l.filter p := by
  induction l with
  | nil => rfl
  | cons a l ih =>
    by_cases ha : p a = true
    · rw [List.takeWhile_cons_of_pos ha, List.filter_cons_of_pos ha, ih (List.pairwise_cons.1 h).2]
    · have hnone : (a :: l).filter p = [] :=
        List.filter_eq_nil_iff.2 fun b hb => by simp [eq_false_of_head h ha hb]
      rw [List.takeWhile_cons_of_neg ha, hnone]

private theorem dropWhile_eq_filter (h : l.Pairwise fun a b => p b = true → p a = true) :
    l.dropWhile p = l.filter fun a => !p a := by
  induction l with
  | nil => rfl
  | cons a l ih =>
    by_cases ha : p a = true
    · rw [List.dropWhile_cons_of_pos ha, List.filter_cons_of_neg (by simp [ha]), ih (List.pairwise_cons.1 h).2]
    · have hall : (a :: l).filter (fun b => !p b) = a :: l :=
        List.filter_eq_self.2 fun b hb => by simp [eq_false_of_head h ha hb]
      rw [List.dropWhile_cons_of_neg ha, hall]

end Prefix

namespace Place

/-- The place of an owner that comes before the others. -/
def first (a : Address) : Place := ⟨a, 0⟩

/-- The place of an owner that comes after the others. -/
def last (a : Address) : Place := ⟨a, 18446744073709551615⟩

private theorem slot_le_last (n : UInt64) : n ≤ 18446744073709551615 := by
  rw [UInt64.le_iff_toNat_le]
  exact Nat.le_of_lt_succ n.toNat_lt

/-- The places from the first one of an owner to the last one are those of the owner. -/
theorem within_iff {p : Place} {a : Address} : ¬ p < first a ∧ ¬ last a < p ↔ p.owner = a := by
  constructor
  · rintro ⟨hfirst, hlast⟩
    simp only [lt_iff, not_or] at hfirst hlast
    have hbytes : p.owner.bytes = a.bytes :=
      List.le_antisymm (List.not_lt.1 hlast.1) (List.not_lt.1 hfirst.1)
    cases hp : p.owner
    cases ha : a
    simp_all
  · rintro rfl
    constructor
    · rintro (hbytes | ⟨-, hslot⟩)
      · exact List.lt_irrefl _ hbytes
      · exact UInt64.not_lt.2 (UInt64.zero_le) hslot
    · rintro (hbytes | ⟨-, hslot⟩)
      · exact List.lt_irrefl _ hbytes
      · exact UInt64.not_lt.2 (slot_le_last _) hslot

end Place

namespace Store

variable {s : Store} {now : Int64} {a : Address} {p q : Place} {w : SecretWrite}

/-- The entries from one place to another, both included, in order. -/
def between (s : Store) (p q : Place) : List SecretWrite :=
  (s.writes.dropWhile fun w => w.place < p).takeWhile fun w => ¬ q < w.place

private theorem between_eq_filter (s : Store) (p q : Place) :
    s.between p q = s.writes.filter fun w => ¬ w.place < p ∧ ¬ q < w.place := by
  -- Both tests hold of the first entries only: one of those that are left out in front, the other of those that are taken.
  have hbefore : s.writes.Pairwise fun v w => decide (w.place < p) = true → decide (v.place < p) = true :=
    s.sorted.imp fun hvw hw => decide_eq_true (Place.lt_trans hvw (of_decide_eq_true hw))
  have hwithin : s.writes.Pairwise fun v w => decide (¬ q < w.place) = true → decide (¬ q < v.place) = true := by
    refine s.sorted.imp fun hvw hw => ?_
    rw [decide_eq_true_eq] at hw ⊢
    exact fun hv => hw (Place.lt_trans hv hvw)
  rw [between, dropWhile_eq_filter hbefore, takeWhile_eq_filter (hwithin.filter _), List.filter_filter]
  refine List.filter_congr fun w _ => ?_
  simp only [decide_not, Bool.decide_and, Bool.and_comm]

/-- The scan over all places of an owner meets exactly the entries of the owner. -/
theorem between_eq_owned (s : Store) (a : Address) : s.between (.first a) (.last a) = s.owned a := by
  rw [between_eq_filter, owned]
  refine List.filter_congr fun w _ => ?_
  rw [Bool.eq_iff_iff, decide_eq_true_eq, beq_iff_eq]
  exact Place.within_iff

/-- The neighbours of an address in the outermost slots that are next to it. -/
example :
    let entry : UInt8 → UInt64 → SecretWrite := fun owner slot => ⟨⟨.ofLastBytes [owner], slot, 1⟩, ⟨100, []⟩, []⟩
    let s := [entry 1 18446744073709551615, entry 2 0, entry 2 18446744073709551615, entry 3 0].foldl insert (fresh .standard)
    s.between (.first (.ofLastBytes [2])) (.last (.ofLastBytes [2])) = [entry 2 0, entry 2 18446744073709551615] := by
  decide +kernel

/-- The entry that a reader finds at a place is the one that the store has for it, while it counts. -/
theorem get?_eq_some_iff : s.get? now p = some w ↔ w ∈ s.writes ∧ w.place = p ∧ now < w.record.expiration := by
  rw [get?, Option.filter_eq_some_iff, SecretWrite.isLive, decide_eq_true_eq]
  constructor
  · rintro ⟨hkept, hlive⟩
    obtain rfl := place_of_kept? hkept
    exact ⟨mem_writes_iff.2 hkept, rfl, hlive⟩
  · rintro ⟨hmem, rfl, hlive⟩
    exact ⟨mem_writes_iff.1 hmem, hlive⟩

private theorem mem_list_iff {row : SecretRow} : row ∈ s.list now a ↔ ∃ w, s.get? now ⟨a, row.slot⟩ = some w ∧ w.row = row := by
  constructor
  · intro h
    obtain ⟨w, hmem, rfl, hlive, rfl⟩ := exists_of_mem_list h
    exact ⟨w, get?_eq_some_iff.2 ⟨hmem, rfl, of_decide_eq_true hlive⟩, rfl⟩
  · rintro ⟨w, hfound, rfl⟩
    obtain ⟨hmem, hplace, hlive⟩ := get?_eq_some_iff.1 hfound
    have howner : w.key.owner = a := congrArg Place.owner hplace
    rw [list_eq_owned]
    refine List.mem_map_of_mem (List.mem_filter.2 ⟨mem_owned_iff.2 ⟨hmem, howner⟩, ?_⟩)
    exact decide_eq_true hlive

private theorem pairwise_list (s : Store) (now : Int64) (a : Address) :
    (s.list now a).Pairwise fun row row' => row.slot < row'.slot := by
  rw [list_eq_owned, List.pairwise_map]
  exact (s.pairwise_slots a).filter _

theorem get?_of_put {t : Store} (h : s.put now w = .ok t) : t.get? now w.place = some w := by
  obtain ⟨hlimits, -, -, rfl⟩ := put_eq_ok_iff.1 h
  rw [get?, kept?_insert, if_pos rfl, Option.filter_some, if_pos]
  exact decide_eq_true (lt_expiration_of_check hlimits)

/-- The two ways to read a store agree, whatever it holds and whatever its clock shows. An owner is told a row for a slot exactly
if a reader finds an entry in that slot at that time, and the row has its version and its expiration. The rows come in the
order of their slots, none twice. They are those of the scan from the first place of the owner to the last one, which meets
all entries of the owner and nobody else's. A write that has just been accepted is shown by both ways at once. -/
theorem readers_agree (s : Store) (now : Int64) (a : Address) :
    (∀ slot version expiration, ⟨slot, version, expiration⟩ ∈ s.list now a ↔
      ∃ w, s.get? now ⟨a, slot⟩ = some w ∧ w.key.version = version ∧ w.record.expiration = expiration) ∧
    (s.list now a).Pairwise (fun row row' => row.slot < row'.slot) ∧
    s.list now a = ((s.between (.first a) (.last a)).filter fun w => w.isLive now).map SecretWrite.row ∧
    (∀ w, w ∈ s.between (.first a) (.last a) ↔ w ∈ s.writes ∧ w.key.owner = a) ∧
    ∀ w t, s.put now w = .ok t → t.get? now w.place = some w ∧
      ⟨w.key.slot, w.key.version, w.record.expiration⟩ ∈ t.list now w.key.owner := by
  refine ⟨fun slot version expiration => ?_, s.pairwise_list now a, ?_, fun w => ?_, fun w t hput => ?_⟩
  · rw [mem_list_iff]
    constructor
    · rintro ⟨w, hfound, hrow⟩
      cases hrow
      exact ⟨w, hfound, rfl, rfl⟩
    · rintro ⟨w, hfound, rfl, rfl⟩
      obtain ⟨-, hplace, -⟩ := get?_eq_some_iff.1 hfound
      have hslot : w.key.slot = slot := congrArg Place.slot hplace
      exact ⟨w, hfound, by rw [SecretWrite.row, hslot]⟩
  · rw [between_eq_owned, list_eq_owned]
  · rw [between_eq_owned, mem_owned_iff]
  · have hfound := get?_of_put hput
    exact ⟨hfound, mem_list_iff.2 ⟨w, hfound, rfl⟩⟩

/-- A write of the key five is accepted by an empty store, and shown by both ways. -/
theorem lasting_shown : ∃ t, (fresh .standard).put 0 Replay.lasting = .ok t ∧
    t.get? 0 ⟨.five, 1⟩ = some Replay.lasting ∧ ⟨1, 1, 100⟩ ∈ t.list 0 .five := by
  have hput : (fresh .standard).put 0 Replay.lasting = .ok ((fresh .standard).insert Replay.lasting) :=
    put_eq_ok_iff.2 ⟨rfl, Replay.isAuthorised_lasting, nofun, rfl⟩
  obtain ⟨-, -, -, -, hshown⟩ := readers_agree (fresh .standard) 0 .five
  exact ⟨_, hput, hshown Replay.lasting _ hput⟩

end Store

end SecretsGateway
