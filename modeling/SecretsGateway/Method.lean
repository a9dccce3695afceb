import SecretsGateway.Secret.Wire

/-!
# Methods and their requests

The two methods that are served, each with its own payload. A payload that does not fit a known method is an error that
is answered; an unknown method is no method at all.
-/

namespace SecretsGateway

/-- What a client can ask for. -/
inductive Method where
  | list
  | set
  deriving DecidableEq, Repr

/-- The payload of a request to keep a secret; the owner is the sender of the message. -/
structure SetRequest where
  slot : UInt64
  version : UInt64
  expiration : Int64
  payload : Bytes
  signature : Bytes
  deriving DecidableEq

/-- A request with its payload read. -/
inductive Request where
  | list
  | set (r : SetRequest)
  deriving DecidableEq

/-- Why a payload is refused. -/
inductive RequestError where
  | missingPayload
  | json (e : Json.Error)
  deriving DecidableEq, Repr

def RequestError.message : RequestError → String
  | .missingPayload => "missing payload"
  | .json e => e.message

namespace SetRequest

/-- The write that the request of `owner` stands for. -/
def toWrite (r : SetRequest) (owner : Address) : SecretWrite :=
  ⟨⟨owner, r.slot, r.version⟩, ⟨r.expiration, r.payload⟩, r.signature⟩

def toJson (r : SetRequest) : Json.Value :=
  .object [("slot_id", .int r.slot.toNat), ("version", .int r.version.toNat), ("expiration", .int r.expiration.toInt),
    ("payload", .base64 r.payload), ("signature", .base64 r.signature)]

/-- A request as it may be shown: without payload and signature. -/
def summary (r : SetRequest) : String :=
  s!"SetRequest \x7b slot_id: {r.slot}, version: {r.version}, expiration: {r.expiration}, " ++
    s!"payload_len: {r.payload.length}, .. \x7d"

structure Draft where
  slot : Option UInt64 := none
  version : Option UInt64 := none
  expiration : Option Int64 := none
  payload : Option Bytes := none
  signature : Option Bytes := none

def shape : Json.Shape Draft SetRequest where
  name := "struct SetRequest"
  start := {}
  members := [
    .of "slot_id" (Json.unsigned "u64") Draft.slot fun d a => { d with slot := some a },
    .of "version" (Json.unsigned "u64") Draft.version fun d a => { d with version := some a },
    .of "expiration" Json.signed Draft.expiration fun d a => { d with expiration := some a },
    .of "payload" Json.base64 Draft.payload fun d a => { d with payload := some a },
    .of "signature" Json.base64 Draft.signature fun d a => { d with signature := some a }]
  finish d := do
    return ⟨← Json.required "slot_id" d.slot, ← Json.required "version" d.version,
      ← Json.required "expiration" d.expiration, ← Json.required "payload" d.payload,
      ← Json.required "signature" d.signature⟩

end SetRequest

namespace Method

def name : Method → String
  | list => "secrets_list"
  | set => "secrets_set"

def ofName? (s : String) : Option Method :=
  if s = list.name then some list else if s = set.name then some set else none

/-- Reads a payload; a request to list needs none and ignores any. -/
def decode (method : Method) (payload : Bytes) : Except RequestError Request :=
  match method with
  | list => .ok .list
  | set =>
    if payload.isEmpty then .error .missingPayload
    else match Json.decode SetRequest.shape.read payload with
      | .ok r => .ok (.set r)
      | .error e => .error (.json e)

theorem ofName?_name (m : Method) : ofName? m.name = some m := by cases m <;> decide

end Method

end SecretsGateway
