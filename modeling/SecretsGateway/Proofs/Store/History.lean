import SecretsGateway.Proofs.Signing
import SecretsGateway.Proofs.Store.Kept

/-!
# Histories of a store

A store is used again and again, and its clock is read at every use. As long as a store holds an entry it accepts nothing as
old for the same place, but when a purge has taken the entry away it knows nothing of its version any more. So the versions
that are accepted for a place increase exactly if nothing as old is accepted after a purge (`Store.versions_increasing_iff`).
They do increase if newer writes never expire before older ones (`Store.Unforgotten.of_outliving`), and without that an old
write can be put a second time (`Store.Replay.versions_replayed`).
-/

namespace SecretsGateway

/-- What is asked of a store. -/
inductive Access where
  | put (w : SecretWrite)
  | get (p : Place)
  | list (owner : Address)
  | purge

/-- An access, and the reading of the clock. -/
structure Use where
  now : Int64
  access : Access

open Secp256k1 in
/-- A write is signed by its owner if the curve gives the owner back. -/
private theorem SecretWrite.isAuthorised_of_recoverPoint {w : SecretWrite} {key : SigningKey} {sig : Signature} {digest : Bytes}
    (howner : key.address = w.key.owner) (hsignature : w.signature = sig.toBytes)
    (hdigest : Keccak.digest (WriteEnvelope.ofWrite w.key w.record).signingBytes = digest) (hr : 0 < sig.r ∧ sig.r < order)
    (hs : 0 < sig.s ∧ sig.s ≤ order / 2) (hv : sig.v < 2)
    (hp : recoverPoint sig.r sig.s (decide (sig.v = 1)) digest = some key.publicKey) : w.isAuthorised = true := by
  rw [← hdigest] at hp
  have hrecover : (WriteEnvelope.ofWrite w.key w.record).recover w.signature = .ok w.key.owner := by
    rw [WriteEnvelope.recover, hsignature, recover_toBytes hr hs hv hp, ← howner]
    rfl
  unfold isAuthorised
  rw [hrecover]
  exact beq_self_eq_true w.key.owner

namespace Store

/-- A store in which nothing has been put. -/
def fresh (c : Constraints) : Store := { constraints := c }

/-- The store after a use. Whoever reads it, or puts a write that is refused, leaves it as it is. -/
def use (s : Store) (u : Use) : Store :=
  match u.access with
  | .put w =>
    match s.put u.now w with
    | .ok s' => s'
    | .error _ => s
  | .get _ => s
  | .list _ => s
  | .purge => s.purge u.now

/-- The store after some uses. -/
def after (s : Store) (uses : List Use) : Store := uses.foldl use s

/-- The version that is accepted for a place by a use. -/
def version? (s : Store) (p : Place) (u : Use) : Option UInt64 :=
  match u.access with
  | .put w =>
    match s.put u.now w with
    | .ok _ => if w.place = p then some w.key.version else none
    | .error _ => none
  | _ => none

/-- The versions that are accepted for a place, in order. -/
def versions (s : Store) (p : Place) : List Use → List UInt64
  | [] => []
  | u :: uses => (s.version? p u).toList ++ (s.use u).versions p uses

/-- When a purge has taken an entry away, nothing as old as the entry is accepted for its place. -/
def Unforgotten (s : Store) (p : Place) (uses : List Use) : Prop :=
  ∀ earlier now later held, uses = earlier ++ ⟨now, .purge⟩ :: later → (s.after earlier).kept? p = some held →
    held.record.expiration ≤ now → ∀ v ∈ ((s.after earlier).purge now).versions p later, held.key.version < v

variable {c : Constraints} {s s' : Store} {p : Place} {u : Use} {uses : List Use} {now : Int64} {w : SecretWrite}

theorem after_concat (s : Store) (uses : List Use) (u : Use) : s.after (uses ++ [u]) = (s.after uses).use u := by
  simp only [after, List.foldl_append, List.foldl_cons, List.foldl_nil]

theorem use_of_put_ok (h : s.put now w = .ok s') : s.use ⟨now, .put w⟩ = s' := by
  simp only [use, h]

theorem use_of_put_error {e : StorageError} (h : s.put now w = .error e) : s.use ⟨now, .put w⟩ = s := by
  simp only [use, h]

theorem version?_of_put_ok (h : s.put now w = .ok s') :
    s.version? p ⟨now, .put w⟩ = if w.place = p then some w.key.version else none := by
  simp only [version?, h]

theorem version?_of_put_error {e : StorageError} (h : s.put now w = .error e) : s.version? p ⟨now, .put w⟩ = none := by
  simp only [version?, h]

private theorem versions_cons_of_some {v : UInt64} (h : s.version? p u = some v) :
    s.versions p (u :: uses) = v :: (s.use u).versions p uses := by
  rw [versions, h]
  rfl

private theorem versions_cons_of_none (h : s.version? p u = none) : s.versions p (u :: uses) = (s.use u).versions p uses := by
  rw [versions, h]
  rfl

private theorem versions_put_of_ok (h : s.put now w = .ok s') :
    s.versions w.place (⟨now, .put w⟩ :: uses) = w.key.version :: s'.versions w.place uses := by
  have hversion : s.version? w.place ⟨now, .put w⟩ = some w.key.version := by
    rw [version?_of_put_ok h, if_pos rfl]
  rw [versions_cons_of_some hversion, use_of_put_ok h]

private theorem versions_purge : s.versions p (⟨now, .purge⟩ :: uses) = (s.purge now).versions p uses := rfl

/-- What a use does to a place: it puts a write there that is newer than what was there, it purges the place, or it leaves
the place as it is. -/
theorem use_cases (s : Store) (u : Use) (p : Place) :
    (∃ w, u.access = .put w ∧ w.place = p ∧ u.now < w.record.expiration ∧ s.version? p u = some w.key.version ∧
      (s.use u).kept? p = some w ∧ ∀ held ∈ s.kept? p, held.key.version < w.key.version) ∨
    (u.access = .purge ∧ s.version? p u = none ∧ (s.use u).kept? p = (s.kept? p).filter fun w => w.isLive u.now) ∨
    (u.access ≠ .purge ∧ s.version? p u = none ∧ (s.use u).kept? p = s.kept? p) := by
  obtain ⟨now, access⟩ := u
  cases access with
  | get q => exact .inr (.inr ⟨nofun, rfl, rfl⟩)
  | list owner => exact .inr (.inr ⟨nofun, rfl, rfl⟩)
  | purge => exact .inr (.inl ⟨rfl, rfl, s.kept?_purge now p⟩)
  | put w =>
    cases hput : s.put now w with
    | error e => exact .inr (.inr ⟨nofun, version?_of_put_error hput, by rw [use_of_put_error hput]⟩)
    | ok s' =>
      obtain ⟨hlimits, -, hnewer, rfl⟩ := put_eq_ok_iff.1 hput
      by_cases hplace : w.place = p
      · refine .inl ⟨w, rfl, hplace, ?_, ?_, ?_, ?_⟩
        · exact lt_expiration_of_check hlimits
        · rw [version?_of_put_ok hput, if_pos hplace]
        · rw [use_of_put_ok hput, kept?_insert, if_pos hplace]
        · rw [← hplace]
          exact hnewer
      · refine .inr (.inr ⟨nofun, ?_, ?_⟩)
        · rw [version?_of_put_ok hput, if_neg hplace]
        · rw [use_of_put_ok hput, kept?_insert, if_neg hplace]

private theorem unforgotten_nil : s.Unforgotten p [] := by
  intro earlier now later held hnil
  cases earlier <;> cases hnil

private theorem unforgotten_cons : s.Unforgotten p (u :: uses) ↔
    (u.access = .purge → ∀ held ∈ s.kept? p, held.record.expiration ≤ u.now →
      ∀ v ∈ (s.use u).versions p uses, held.key.version < v) ∧ (s.use u).Unforgotten p uses := by
  constructor
  · intro h
    constructor
    · intro hpurge held hheld hexpired
      obtain ⟨now, access⟩ := u
      cases hpurge
      exact h [] now uses held rfl hheld hexpired
    · intro earlier now later held huses
      exact h (u :: earlier) now later held (congrArg (List.cons u) huses)
  · rintro ⟨hfirst, hrest⟩ earlier now later held huses hheld hexpired
    cases earlier with
    | nil =>
      cases huses
      exact hfirst rfl held hheld hexpired
    | cons u' earlier =>
      cases huses
      exact hrest earlier now later held rfl hheld hexpired

/-- The versions that are accepted for a place are newer than what the place holds, and increase, exactly if nothing
forgotten comes back. -/
private theorem newer_and_increasing_iff (s : Store) (p : Place) (uses : List Use) :
    ((∀ v ∈ s.versions p uses, ∀ held ∈ s.kept? p, held.key.version < v) ∧ (s.versions p uses).Pairwise (· < ·)) ↔
      s.Unforgotten p uses := by
  -- what the place holds carries over from one use to the next, apart from what a purge takes away
  induction uses generalizing s with
  | nil => exact ⟨fun _ => unforgotten_nil, fun _ => ⟨nofun, .nil⟩⟩
  | cons u uses ih =>
    rw [unforgotten_cons, ← ih (s.use u)]
    rcases s.use_cases u p with ⟨w, hput, -, -, hversion, hkept, hnewer⟩ | ⟨hpurge, hversion, hkept⟩ | ⟨hother, hversion, hkept⟩
    -- a write: what the place holds now is newer than what it held, and older than what follows
    · have hnotpurge : u.access ≠ .purge := by
        rw [hput]
        nofun
      rw [versions_cons_of_some hversion, hkept, List.pairwise_cons]
      constructor
      · rintro ⟨-, hlater, hincreasing⟩
        refine ⟨fun hpurge => absurd hpurge hnotpurge, fun v hv held hheld => ?_, hincreasing⟩
        cases hheld
        exact hlater v hv
      · rintro ⟨-, hlater, hincreasing⟩
        refine ⟨fun v hv held hheld => ?_, fun v hv => hlater v hv w rfl, hincreasing⟩
        have hw := hnewer held hheld
        rcases List.mem_cons.1 hv with rfl | hv
        · exact hw
        · exact UInt64.lt_trans hw (hlater v hv w rfl)
    -- a purge: only what has expired has to be asked about, the rest is still there
    · rw [versions_cons_of_none hversion, hkept]
      constructor
      · rintro ⟨hheld, hincreasing⟩
        refine ⟨fun _ held hmem _ v hv => hheld v hv held hmem, fun v hv held hmem => ?_, hincreasing⟩
        exact hheld v hv held (Option.mem_filter_iff.1 hmem).1
      · rintro ⟨hforgotten, hheld, hincreasing⟩
        refine ⟨fun v hv held hmem => ?_, hincreasing⟩
        by_cases hlive : held.isLive u.now = true
        · exact hheld v hv held (Option.mem_filter_iff.2 ⟨hmem, hlive⟩)
        · have hexpired : held.record.expiration ≤ u.now := by
            rw [SecretWrite.isLive, decide_eq_true_eq] at hlive
            exact Int64.not_lt.1 hlive
          exact hforgotten hpurge held hmem hexpired v hv
    · rw [versions_cons_of_none hversion, hkept]
      constructor
      · rintro ⟨hheld, hincreasing⟩
        exact ⟨fun hpurge => absurd hpurge hother, hheld, hincreasing⟩
      · rintro ⟨-, hheld, hincreasing⟩
        exact ⟨hheld, hincreasing⟩

/-- In any use of a store from the start the versions that are accepted for a place are strictly increasing, exactly if
nothing is accepted for the place that is as old as an entry that a purge has taken away there. -/
theorem versions_increasing_iff (c : Constraints) (p : Place) (uses : List Use) :
    ((fresh c).versions p uses).Pairwise (· < ·) ↔ (fresh c).Unforgotten p uses := by
  rw [← newer_and_increasing_iff]
  constructor
  · intro h
    exact ⟨nofun, h⟩
  · rintro ⟨-, h⟩
    exact h

/-! ### A write that is put a second time -/

namespace Replay

private def lastingParts : Signature :=
  ⟨77495984975965705077479056630596796660412808232209375453571018165682414881239,
   40647522052650361066114365531019433117407549397098856625730497308678603892748, 0⟩

/-- The first version of a secret, which lasts until 100. -/
def lasting : SecretWrite := ⟨⟨.five, 1, 1⟩, ⟨100, []⟩, lastingParts.toBytes⟩

private def briefParts : Signature :=
  ⟨55085907951161453085324592005448542420843125856320284034202629868496250442916,
   31899150608532801865371866039076111363344055708432369598773941389301161557096, 0⟩

/-- The second version of the secret, which lasts until 10. -/
def brief : SecretWrite := ⟨⟨.five, 1, 2⟩, ⟨10, []⟩, briefParts.toBytes⟩

theorem isAuthorised_lasting : lasting.isAuthorised = true := by
  have howner : SigningKey.five.address = lasting.key.owner := SigningKey.address_five
  have hsignature : lasting.signature = lastingParts.toBytes := rfl
  apply SecretWrite.isAuthorised_of_recoverPoint howner hsignature (Keccak.digest_eq _)
  · decide +kernel
  · decide +kernel
  · decide +kernel
  · decide +kernel

private theorem isAuthorised_brief : brief.isAuthorised = true := by
  have howner : SigningKey.five.address = brief.key.owner := SigningKey.address_five
  have hsignature : brief.signature = briefParts.toBytes := rfl
  apply SecretWrite.isAuthorised_of_recoverPoint howner hsignature (Keccak.digest_eq _)
  · decide +kernel
  · decide +kernel
  · decide +kernel
  · decide +kernel

/-- The second version supersedes the first one and expires; then the first one is put again. -/
def run : List Use := [⟨0, .put lasting⟩, ⟨0, .put brief⟩, ⟨10, .purge⟩, ⟨10, .put lasting⟩]

/-- The clock never goes back, and a write is accepted again that a newer one has superseded. -/
theorem versions_replayed : (run.map Use.now).Pairwise (· ≤ ·) ∧
    (fresh .standard).versions ⟨.five, 1⟩ run = [1, 2, 1] ∧
    ¬ ((fresh .standard).versions ⟨.five, 1⟩ run).Pairwise (· < ·) := by
  have hplace : lasting.place = brief.place := by decide
  obtain ⟨s₁, hs₁⟩ : ∃ s, s = (fresh .standard).insert lasting := ⟨_, rfl⟩
  obtain ⟨s₂, hs₂⟩ : ∃ s, s = s₁.insert brief := ⟨_, rfl⟩
  obtain ⟨s₃, hs₃⟩ : ∃ s, s = s₂.purge 10 := ⟨_, rfl⟩
  have hkept₁ : s₁.kept? brief.place = some lasting := by rw [hs₁, kept?_insert, if_pos hplace]
  have hkept₃ : s₃.kept? lasting.place = none := by
    rw [hs₃, kept?_purge, hs₂, kept?_insert, if_pos hplace.symm]
    decide
  have hlimits₁ : s₁.constraints = .standard := by rw [hs₁, constraints_insert, fresh]
  have hlimits₃ : s₃.constraints = .standard := by rw [hs₃, constraints_purge, hs₂, constraints_insert, hlimits₁]
  have hput₁ : (fresh .standard).put 0 lasting = .ok s₁ := put_eq_ok_iff.2 ⟨rfl, isAuthorised_lasting, nofun, hs₁⟩
  have hput₂ : s₁.put 0 brief = .ok s₂ := by
    refine put_eq_ok_iff.2 ⟨hlimits₁ ▸ rfl, isAuthorised_brief, fun held hheld => ?_, hs₂⟩
    rw [hkept₁] at hheld
    cases hheld
    decide
  have hput₃ : s₃.put 10 lasting = .ok (s₃.insert lasting) := by
    refine put_eq_ok_iff.2 ⟨hlimits₃ ▸ rfl, isAuthorised_lasting, fun held hheld => ?_, rfl⟩
    rw [hkept₃] at hheld
    cases hheld
  have hversions : (fresh .standard).versions lasting.place run = [1, 2, 1] := by
    rw [run, versions_put_of_ok hput₁, hplace, versions_put_of_ok hput₂, versions_purge, ← hs₃, ← hplace,
      versions_put_of_ok hput₃]
    rfl
  refine ⟨by decide, hversions, ?_⟩
  change ¬ ((fresh .standard).versions lasting.place run).Pairwise (· < ·)
  rw [hversions]
  decide

end Replay

/-- What a place holds after some uses was put there, unless the place held it before. -/
private theorem mem_of_kept?_after {held : SecretWrite} (h : (s.after uses).kept? p = some held) :
    s.kept? p = some held ∨ held.place = p ∧ ∃ now, ⟨now, .put held⟩ ∈ uses := by
  induction uses generalizing s with
  | nil => exact .inl h
  | cons u uses ih =>
    rcases ih h with hkept | ⟨hplace, now, hmem⟩
    · rcases s.use_cases u p with ⟨w, hput, hplace, -, -, hw, -⟩ | ⟨-, -, hw⟩ | ⟨-, -, hw⟩
      · rw [hw] at hkept
        cases hkept
        obtain ⟨now, access⟩ := u
        cases hput
        exact .inr ⟨hplace, now, List.mem_cons_self⟩
      · rw [hw] at hkept
        exact .inl (Option.mem_filter_iff.1 hkept).1
      · exact .inl (hw ▸ hkept)
    · exact .inr ⟨hplace, now, List.mem_cons_of_mem u hmem⟩

/-- A version that is accepted for a place is that of a write that was put there before it expired. -/
private theorem exists_of_mem_versions {v : UInt64} (h : v ∈ s.versions p uses) :
    ∃ w now, w.place = p ∧ w.key.version = v ∧ ⟨now, .put w⟩ ∈ uses ∧ now < w.record.expiration := by
  induction uses generalizing s with
  | nil => cases h
  | cons u uses ih =>
    rcases List.mem_append.1 h with hfirst | hrest
    · rcases s.use_cases u p with ⟨w, hput, hplace, hlive, hversion, -⟩ | ⟨-, hversion, -⟩ | ⟨-, hversion, -⟩
      · rw [hversion] at hfirst
        obtain ⟨now, access⟩ := u
        cases hput
        exact ⟨w, now, hplace, (List.mem_singleton.1 hfirst).symm, List.mem_cons_self, hlive⟩
      · rw [hversion] at hfirst
        cases hfirst
      · rw [hversion] at hfirst
        cases hfirst
    · obtain ⟨w, now, hplace, hversion, hmem, hlive⟩ := ih hrest
      exact ⟨w, now, hplace, hversion, List.mem_cons_of_mem u hmem, hlive⟩

/-- If the clock never goes back, and no write for a place expires before an older one, then nothing forgotten comes back. -/
theorem Unforgotten.of_outliving (hclock : (uses.map Use.now).Pairwise (· ≤ ·))
    (hlasting : ∀ t t' older newer, ⟨t, .put older⟩ ∈ uses → ⟨t', .put newer⟩ ∈ uses → older.place = p → newer.place = p →
      older.key.version ≤ newer.key.version → older.record.expiration ≤ newer.record.expiration) :
    (fresh c).Unforgotten p uses := by
  rintro earlier now later held rfl hheld hexpired v hv
  apply Decidable.byContradiction
  intro hold
  -- a write that is accepted after the purge has not expired by then, but the entry that it does not outlive has
  obtain ⟨w, t, hplace, rfl, hmem, hlive⟩ := exists_of_mem_versions hv
  obtain ⟨hheldplace, t', hput⟩ := (mem_of_kept?_after hheld).resolve_left nofun
  have hlater : now ≤ t := by
    rw [List.map_append, List.map_cons] at hclock
    have hpurge := (List.pairwise_append.1 hclock).2.1
    exact (List.pairwise_cons.1 hpurge).1 t (List.mem_map.2 ⟨_, hmem, rfl⟩)
  have houtlived : w.record.expiration ≤ held.record.expiration := by
    apply hlasting t t' w held _ _ hplace hheldplace (UInt64.not_lt.1 hold)
    · exact List.mem_append_right _ (List.mem_cons_of_mem _ hmem)
    · exact List.mem_append_left _ hput
  exact Int64.lt_irrefl (Int64.lt_of_lt_of_le hlive (Int64.le_trans houtlived (Int64.le_trans hexpired hlater)))

end Store

end SecretsGateway
