import SecretsGateway.Json.Record
import SecretsGateway.Message
import SecretsGateway.Secret.Wire

/-!
# Messages on the wire

The JSON form of a message. A payload is taken over as it stands, so that what was signed is what is checked.
-/

namespace SecretsGateway

namespace MessageBody

/-- The JSON form; an absent payload is left out. -/
def toJson (b : MessageBody) : Json.Value :=
  .object ([("message_id", .text b.messageId), ("method", .text b.method), ("don_id", .text b.donId),
    ("sender", .text b.sender)] ++ (b.payload.map fun p => ("payload", Json.Value.written p)).toList)

/-- The members read so far; the outer option of `payload` tells whether the member was there. -/
structure Draft where
  messageId : Option String := none
  method : Option String := none
  donId : Option String := none
  sender : Option String := none
  payload : Option (Option Bytes) := none

def shape : Json.Shape Draft MessageBody where
  name := "struct MessageBody"
  start := {}
  members := [
    .of "message_id" (Json.string "a string") Draft.messageId fun d a => { d with messageId := some a },
    .of "method" (Json.string "a string") Draft.method fun d a => { d with method := some a },
    .of "don_id" (Json.string "a string") Draft.donId fun d a => { d with donId := some a },
    .of "sender" (Json.string "a string") Draft.sender fun d a => { d with sender := some a },
    .of "payload" (Json.optional Json.written) Draft.payload fun d a => { d with payload := some a }]
  finish d := do
    return ⟨← Json.required "message_id" d.messageId, ← Json.required "method" d.method,
      ← Json.required "don_id" d.donId, d.sender.getD "", d.payload.getD none⟩

end MessageBody

namespace Message

def toJson (m : Message) : Json.Value := .object [("signature", .text m.signature), ("body", m.body.toJson)]

/-- The bytes of a message on the wire. -/
def encode (m : Message) : Bytes := m.toJson.write

structure Draft where
  signature : Option String := none
  body : Option MessageBody := none

def shape : Json.Shape Draft Message where
  name := "struct Message"
  start := {}
  members := [
    .of "signature" (Json.string "a string") Draft.signature fun d a => { d with signature := some a },
    .of "body" MessageBody.shape.read Draft.body fun d a => { d with body := some a }]
  finish d := do return ⟨d.signature.getD "", ← Json.required "body" d.body⟩

def decode (document : Bytes) : Except MessageError Message :=
  (Json.decode shape.read document).mapError .json

end Message

end SecretsGateway
