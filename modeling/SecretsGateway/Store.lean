import SecretsGateway.Constraints
import SecretsGateway.Event

/-!
# The store

The latest write of every slot, in the order of owners and slots. A write is accepted if it is within the limits, signed
by its owner, and newer than what the slot holds, expired or not. Readers see an entry as long as its expiration lies
ahead; purging forgets the others.
-/

namespace SecretsGateway

/-- Why a write is refused, or a store fails. -/
inductive StorageError where
  | wrongSignature
  | slotTooBig
  | versionTooLow
  | expired
  | payloadTooBig
  | expirationTooLong
  /-- A failure of the store itself, in its own words. -/
  | backend (text : String)
  deriving DecidableEq, Repr

def StorageError.message : StorageError → String
  | .wrongSignature => "wrong signature"
  | .slotTooBig => "slot id is too big"
  | .versionTooLow => "version too low"
  | .expired => "expired"
  | .payloadTooBig => "payload too big"
  | .expirationTooLong => "expiration too long"
  | .backend text => "backend error: " ++ text

/-! ### Places -/

/-- Where a write goes: a slot of an owner. -/
structure Place where
  owner : Address
  slot : UInt64
  deriving DecidableEq

/-- The place of a key, whatever its version. -/
def SecretKey.place (k : SecretKey) : Place := ⟨k.owner, k.slot⟩

namespace Place

/-- Places are ordered by owner, then by slot. -/
instance : LT Place := ⟨fun a b => a.owner.bytes < b.owner.bytes ∨ a.owner = b.owner ∧ a.slot < b.slot⟩

theorem lt_iff {a b : Place} : a < b ↔ a.owner.bytes < b.owner.bytes ∨ a.owner = b.owner ∧ a.slot < b.slot := Iff.rfl

instance (a b : Place) : Decidable (a < b) := decidable_of_iff _ lt_iff.symm

theorem lt_irrefl (a : Place) : ¬ a < a := by
  rintro (h | ⟨_, h⟩)
  · exact List.lt_irrefl _ h
  · exact UInt64.lt_irrefl _ h

theorem lt_trans {a b c : Place} (hab : a < b) (hbc : b < c) : a < c := by
  rcases hab with hab | ⟨hab, hslot⟩ <;> rcases hbc with hbc | ⟨hbc, hslot'⟩
  · exact Or.inl (List.lt_trans hab hbc)
  · exact Or.inl (hbc ▸ hab)
  · exact Or.inl (hab ▸ hbc)
  · exact Or.inr ⟨hab.trans hbc, UInt64.lt_trans hslot hslot'⟩

/-- Two places of which neither comes first are the same. -/
theorem eq_of_not_lt {a b : Place} (hab : ¬ a < b) (hba : ¬ b < a) : a = b := by
  simp only [lt_iff, not_or, not_and] at hab hba
  have howner : a.owner = b.owner := by
    have h := List.le_antisymm (List.not_lt.1 hba.1) (List.not_lt.1 hab.1)
    cases ha : a.owner
    cases hb : b.owner
    simp_all
  have hslot : a.slot = b.slot :=
    UInt64.le_antisymm (UInt64.not_lt.1 (hba.2 howner.symm)) (UInt64.not_lt.1 (hab.2 howner))
  cases a
  cases b
  simp_all

end Place

/-! ### Entries -/

namespace SecretWrite

/-- Where the write goes. -/
def place (w : SecretWrite) : Place := w.key.place

/-- The write still counts at a time. -/
def isLive (w : SecretWrite) (now : Int64) : Bool := now < w.record.expiration

/-- What readers are told about the write. -/
def row (w : SecretWrite) : SecretRow := ⟨w.key.slot, w.key.version, w.record.expiration⟩

/-- The write is signed by its owner. -/
def isAuthorised (w : SecretWrite) : Bool :=
  match (WriteEnvelope.ofWrite w.key w.record).recover w.signature with
  | .ok signer => signer == w.key.owner
  | .error _ => false

/-- The report of an accepted write. -/
def event (w : SecretWrite) : Event := .stored w.key.owner w.key.slot w.key.version

/-- Puts a write where it belongs among writes in order; what its place held is replaced. -/
def insertInto (w : SecretWrite) : List SecretWrite → List SecretWrite
  | [] => [w]
  | v :: rest =>
    if w.place < v.place then w :: v :: rest
    else if v.place < w.place then v :: w.insertInto rest
    else w :: rest

theorem eq_or_mem_of_mem_insertInto {u w : SecretWrite} {l : List SecretWrite} (h : u ∈ w.insertInto l) :
    u = w ∨ u ∈ l := by
  induction l with
  | nil => exact Or.inl (by simpa [insertInto] using h)
  | cons v rest ih =>
    unfold insertInto at h
    split at h
    · simpa using h
    · split at h
      · rcases List.mem_cons.1 h with h | h
        · exact Or.inr (h ▸ List.mem_cons_self)
        · exact (ih h).imp_right (List.mem_cons_of_mem v)
      · exact (List.mem_cons.1 h).imp_right (List.mem_cons_of_mem v)

/-- Putting a write among writes in order leaves them in order. -/
private theorem pairwise_insertInto (w : SecretWrite) {l : List SecretWrite}
    (h : l.Pairwise fun a b => a.place < b.place) : (w.insertInto l).Pairwise fun a b => a.place < b.place := by
  induction l with
  | nil => simp [insertInto]
  | cons v rest ih =>
    have ⟨hv, hrest⟩ := List.pairwise_cons.1 h
    unfold insertInto
    split
    · next hw =>
      refine List.pairwise_cons.2 ⟨fun u hu => ?_, h⟩
      rcases List.mem_cons.1 hu with rfl | hu
      · exact hw
      · exact Place.lt_trans hw (hv u hu)
    · next hw =>
      split
      · next hvw =>
        refine List.pairwise_cons.2 ⟨fun u hu => ?_, ih hrest⟩
        rcases eq_or_mem_of_mem_insertInto hu with rfl | hu
        · exact hvw
        · exact hv u hu
      · next hvw =>
        have hplace : w.place = v.place := Place.eq_of_not_lt hw hvw
        exact List.pairwise_cons.2 ⟨fun u hu => hplace ▸ hv u hu, hrest⟩

end SecretWrite

/-! ### Limits -/

namespace Constraints

/-- The latest expiration that is not too distant. The greatest distance is taken as a signed number of 64 bits, and the
sum stops at the ends of that range. -/
def latestExpiration (c : Constraints) (now : Int64) : Int64 :=
  Int64.ofIntClamp (now.toInt + c.maxExpiration.toInt64.toInt)

/-- Whether a record may be kept under a key, by the first limit that it breaks. -/
def check (c : Constraints) (key : SecretKey) (record : SecretRecord) (now : Int64) : Except StorageError Unit :=
  if c.maxSlots ≤ key.slot then .error .slotTooBig
  else if c.maxPayload.toNat < record.payload.length then .error .payloadTooBig
  else if record.expiration ≤ now then .error .expired
  else if c.latestExpiration now < record.expiration then .error .expirationTooLong
  else .ok ()

end Constraints

/-! ### Stores -/

/-- The latest write of every place, in order. -/
structure Store where
  constraints : Constraints
  writes : List SecretWrite := []
  sorted : writes.Pairwise (fun a b => a.place < b.place) := by simp

namespace Store

/-- The number of entries, expired ones included. -/
def size (s : Store) : Nat := s.writes.length

/-- What a place holds, expired or not. -/
def kept? (s : Store) (p : Place) : Option SecretWrite := s.writes.find? fun w => w.place = p

/-- Keeps a write without looking at it. -/
def insert (s : Store) (w : SecretWrite) : Store :=
  { s with writes := w.insertInto s.writes, sorted := w.pairwise_insertInto s.sorted }

/-- Accepts a write, or gives the first reason against it. -/
def put (s : Store) (now : Int64) (w : SecretWrite) : Except StorageError Store := do
  s.constraints.check w.key w.record now
  if !w.isAuthorised then throw .wrongSignature
  match s.kept? w.place with
  | some held => if w.key.version ≤ held.key.version then throw .versionTooLow
  | none => pure ()
  return s.insert w

/-- The entry that a reader finds at a place. -/
def get? (s : Store) (now : Int64) (p : Place) : Option SecretWrite := (s.kept? p).filter fun w => w.isLive now

/-- What an owner is told: a row for every live entry, by slot. -/
def list (s : Store) (now : Int64) (owner : Address) : List SecretRow :=
  (s.writes.filter fun w => w.key.owner == owner && w.isLive now).map SecretWrite.row

/-- Forgets the entries that no longer count. -/
def purge (s : Store) (now : Int64) : Store :=
  { s with writes := s.writes.filter fun w => w.isLive now, sorted := s.sorted.filter _ }

/-- How many entries a purge forgets. -/
def purgeCount (s : Store) (now : Int64) : Nat := s.size - (s.purge now).size

end Store

end SecretsGateway
