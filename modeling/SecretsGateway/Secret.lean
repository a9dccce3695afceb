import SecretsGateway.Base64
import SecretsGateway.Json.Value
import SecretsGateway.Signing

/-!
# Secrets

A secret is kept under an owner, a slot and a version. What a client asks to be kept is a write; the owner signs its
`WriteEnvelope`, whose signed bytes are its JSON form.
-/

namespace SecretsGateway

/-- The name of one version of a secret. -/
structure SecretKey where
  owner : Address
  slot : UInt64
  version : UInt64
  deriving DecidableEq

/-- What is kept: the secret bytes, and the second from which they no longer count. -/
structure SecretRecord where
  expiration : Int64
  payload : Bytes
  deriving DecidableEq

/-- What is told about a kept secret; never its bytes. -/
structure SecretRow where
  slot : UInt64
  version : UInt64
  expiration : Int64
  deriving DecidableEq, Repr

/-- A request to keep a secret, with the signature that should authorise it. -/
structure SecretWrite where
  key : SecretKey
  record : SecretRecord
  signature : Bytes
  deriving DecidableEq

/-- A record as it may be shown: without its bytes. -/
def SecretRecord.summary (r : SecretRecord) : String :=
  s!"Record \x7b expiration: {r.expiration}, payload_len: {r.payload.length} \x7d"

/-- Bytes as a JSON text in base64. -/
def Json.Value.base64 (bs : Bytes) : Json.Value :=
  .text (String.ofList ((Base64.encode bs).map fun b => Char.ofNat b.toNat))

/-- What the owner signs to authorise a write. -/
structure WriteEnvelope where
  address : Address
  slot : UInt64
  payload : Bytes
  version : UInt64
  expiration : Int64
  deriving DecidableEq

namespace WriteEnvelope

/-- The envelope of a record under a key. -/
def ofWrite (key : SecretKey) (record : SecretRecord) : WriteEnvelope :=
  ⟨key.owner, key.slot, record.payload, key.version, record.expiration⟩

def toJson (e : WriteEnvelope) : Json.Value :=
  .object [("address", .text e.address.toHex), ("slot_id", .int e.slot.toNat), ("payload", .base64 e.payload),
    ("version", .int e.version.toNat), ("expiration", .int e.expiration.toInt)]

def signingBytes (e : WriteEnvelope) : Bytes := e.toJson.write

/-- The owner's signature. -/
def sign (e : WriteEnvelope) (owner : SigningKey) : Except SignatureError Bytes := owner.sign e.signingBytes

/-- The account that signed the envelope. -/
def recover (e : WriteEnvelope) (signature : Bytes) : Except SignatureError Address :=
  SecretsGateway.recover signature e.signingBytes

end WriteEnvelope

end SecretsGateway
