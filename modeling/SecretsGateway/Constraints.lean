import SecretsGateway.Secret.Wire

/-!
# Limits on writes

How large a payload, how high a slot and how distant an expiration may be.
-/

namespace SecretsGateway

/-- The limits of a store. -/
structure Constraints where
  /-- The greatest number of payload bytes. -/
  maxPayload : UInt64
  /-- Slots lie below this. -/
  maxSlots : UInt64
  /-- The greatest distance of an expiration, in seconds. -/
  maxExpiration : UInt64
  deriving DecidableEq, Repr

namespace Constraints

/-- Five kibibytes, ten slots, a week. -/
def standard : Constraints := ⟨5 * 1024, 10, 7 * 24 * 60 * 60⟩

/-- The first limit that is zero, by the text that says so. -/
def validate (c : Constraints) : Except String Unit :=
  if c.maxPayload = 0 then .error "max_payload_size_bytes cannot be 0"
  else if c.maxSlots = 0 then .error "max_slots_per_user cannot be 0"
  else if c.maxExpiration = 0 then .error "max_expiration_length_sec cannot be 0"
  else .ok ()

def toJson (c : Constraints) : Json.Value :=
  .object [("max_payload_size_bytes", .int c.maxPayload.toNat), ("max_slots_per_user", .int c.maxSlots.toNat),
    ("max_expiration_length_sec", .int c.maxExpiration.toNat)]

structure Draft where
  maxPayload : Option UInt64 := none
  maxSlots : Option UInt64 := none
  maxExpiration : Option UInt64 := none

/-- The form of limits; an absent member has its standard value. -/
def shape : Json.Shape Draft Constraints where
  name := "struct StorageConstraints"
  start := {}
  members := [
    .of "max_payload_size_bytes" (Json.unsigned "usize") Draft.maxPayload fun d a => { d with maxPayload := some a },
    .of "max_slots_per_user" (Json.unsigned "u64") Draft.maxSlots fun d a => { d with maxSlots := some a },
    .of "max_expiration_length_sec" (Json.unsigned "u64") Draft.maxExpiration
      fun d a => { d with maxExpiration := some a }]
  finish d := .ok ⟨d.maxPayload.getD standard.maxPayload, d.maxSlots.getD standard.maxSlots,
    d.maxExpiration.getD standard.maxExpiration⟩

def decode (document : Bytes) : Except Json.Error Constraints := Json.decode shape.read document

end Constraints

end SecretsGateway
