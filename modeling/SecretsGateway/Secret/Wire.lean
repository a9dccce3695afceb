import SecretsGateway.Json.Record
import SecretsGateway.Secret

/-!
# Secrets on the wire

How addresses, base64 texts, write envelopes and rows are read from JSON.
-/

namespace SecretsGateway

/-- Reads an address. A text that is none gets its place from the enclosing value. -/
def Address.read (s : Bytes) : Json.Result Address :=
  (Json.string "a string" s).andThen fun t rest =>
    match Address.parse t with
    | .ok a => .ok (a, rest)
    | .error e => .error (.loose (.refused e.message) rest)

/-- Reads bytes that are written in base64. -/
def Json.base64 (s : Bytes) : Json.Result Bytes :=
  (Json.string "a base64 encoded string" s).andThen fun t rest =>
    match Base64.decode (Utf8.encode t) with
    | .ok bs => .ok (bs, rest)
    | .error e => Json.failHere (.refused e.message) rest

/-- The member `name` of a draft, read with `read` and put into place with `set`. -/
def Json.Member.of {δ α : Type} (name : String) (read : Bytes → Json.Result α) (get : δ → Option α)
    (set : δ → α → δ) : Json.Member δ :=
  ⟨name, fun d => (get d).isSome, fun d s => (read s).andThen fun a rest => .ok (set d a, rest)⟩

/-- A member of a draft that must be there. -/
def Json.required {α : Type} (name : String) (a : Option α) : Except String α :=
  match a with
  | some a => .ok a
  | none => .error name

namespace WriteEnvelope

structure Draft where
  address : Option Address := none
  slot : Option UInt64 := none
  payload : Option Bytes := none
  version : Option UInt64 := none
  expiration : Option Int64 := none

def shape : Json.Shape Draft WriteEnvelope where
  name := "struct SecretEnvelope"
  start := {}
  members := [
    .of "address" Address.read Draft.address fun d a => { d with address := some a },
    .of "slot_id" (Json.unsigned "u64") Draft.slot fun d a => { d with slot := some a },
    .of "payload" Json.base64 Draft.payload fun d a => { d with payload := some a },
    .of "version" (Json.unsigned "u64") Draft.version fun d a => { d with version := some a },
    .of "expiration" Json.signed Draft.expiration fun d a => { d with expiration := some a }]
  finish d := do
    return ⟨← Json.required "address" d.address, ← Json.required "slot_id" d.slot,
      ← Json.required "payload" d.payload, ← Json.required "version" d.version,
      ← Json.required "expiration" d.expiration⟩

def decode (document : Bytes) : Except Json.Error WriteEnvelope := Json.decode shape.read document

end WriteEnvelope

namespace SecretRow

def toJson (r : SecretRow) : Json.Value :=
  .object [("slot_id", .int r.slot.toNat), ("version", .int r.version.toNat), ("expiration", .int r.expiration.toInt)]

structure Draft where
  slot : Option UInt64 := none
  version : Option UInt64 := none
  expiration : Option Int64 := none

def shape : Json.Shape Draft SecretRow where
  name := "struct ListRow"
  start := {}
  members := [
    .of "slot_id" (Json.unsigned "u64") Draft.slot fun d a => { d with slot := some a },
    .of "version" (Json.unsigned "u64") Draft.version fun d a => { d with version := some a },
    .of "expiration" Json.signed Draft.expiration fun d a => { d with expiration := some a }]
  finish d := do
    return ⟨← Json.required "slot_id" d.slot, ← Json.required "version" d.version,
      ← Json.required "expiration" d.expiration⟩

end SecretRow

end SecretsGateway
