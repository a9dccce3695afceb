import SecretsGateway.Json.Failure
import SecretsGateway.Json.Value
import SecretsGateway.Signing
import SecretsGateway.Text.Quoted

/-!
# Signed messages

What the gateway and its clients exchange. The signature covers every field of the body: the four texts, each filled up
with zero bytes to a fixed width, and then the payload as it is written. `Message.validate` tells who signed.
-/

namespace SecretsGateway

/-- Why a message cannot be signed, read or believed. -/
inductive MessageError where
  /-- A field has more bytes than its width. -/
  | fieldTooLong (field : String) (length max : Nat)
  | emptyMethod
  /-- The sender is not forty-two bytes long or not marked with `0x`. -/
  | nonCanonicalSender (sender : String)
  | invalidSender (e : AddressError)
  /-- The signature is not hexadecimal. -/
  | signatureEncoding
  | signature (e : SignatureError)
  | senderMismatch (declared recovered : Address)
  | json (e : Json.Error)
  deriving DecidableEq

def MessageError.message : MessageError → String
  | .fieldTooLong field length max => s!"Field {field} too long: {length} bytes (max {max})"
  | .emptyMethod => "Empty method name"
  | .nonCanonicalSender sender => "Sender " ++ Text.quoted sender ++ " is not a 0x-prefixed 42 character address"
  | .invalidSender e => "Invalid sender: " ++ e.message
  | .signatureEncoding => "Invalid signature encoding"
  | .signature e => "Signature error: " ++ e.message
  | .senderMismatch declared recovered => s!"Signer mismatch: sender {declared}, recovered {recovered}"
  | .json e => "Serialization error: " ++ e.message

/-- The signed part of a message. -/
structure MessageBody where
  /-- Chosen by the client and repeated in the answer. -/
  messageId : String
  method : String
  /-- Names the session; repeated in the answer. -/
  donId : String
  /-- The account that signs. -/
  sender : String
  /-- A JSON value as it is written. -/
  payload : Option Bytes
  deriving DecidableEq

/-- A body with its signature in hexadecimal. -/
structure Message where
  signature : String
  body : MessageBody
  deriving DecidableEq

namespace MessageBody

/-- The greatest number of bytes of each text. -/
def messageIdWidth : Nat := 128

@[inherit_doc messageIdWidth]
def methodWidth : Nat := 64

@[inherit_doc messageIdWidth]
def donIdWidth : Nat := 64

@[inherit_doc messageIdWidth]
def senderWidth : Nat := 42

/-- The payload; nothing if there is none. -/
def payloadBytes (b : MessageBody) : Bytes := b.payload.getD []

/-- A text of at most `width` bytes, filled up with zeros. -/
def aligned (field value : String) (width : Nat) : Except MessageError Bytes :=
  let bs := Utf8.encode value
  if width < bs.length then .error (.fieldTooLong field bs.length width) else .ok (bs.padRight width)

/-- The bytes that the signature covers. -/
def signingBytes (b : MessageBody) : Except MessageError Bytes := do
  let messageId ← aligned "message_id" b.messageId messageIdWidth
  let method ← aligned "method" b.method methodWidth
  let donId ← aligned "don_id" b.donId donIdWidth
  let sender ← aligned "sender" b.sender senderWidth
  return messageId ++ method ++ donId ++ sender ++ b.payloadBytes

/-- The body with a value as its payload. -/
def withPayload (b : MessageBody) (v : Json.Value) : MessageBody := { b with payload := some v.write }

end MessageBody

namespace Message

/-- The message with a fresh signature of its body. -/
def sign (m : Message) (key : SigningKey) : Except MessageError Message := do
  let data ← m.body.signingBytes
  match key.sign data with
  | .ok signature => return { m with signature := Hex.marked signature }
  | .error e => throw (.signature e)

def signatureBytes (m : Message) : Except MessageError Bytes :=
  match Hex.decode? (Hex.unmarked m.signature.toList) with
  | some bs => .ok bs
  | none => .error .signatureEncoding

/-- The account that a sender field declares, if it is written in full. -/
def declaredSender (sender : String) : Except MessageError Address :=
  if sender.utf8ByteSize ≠ MessageBody.senderWidth ∨ ¬ ['0', 'x'] <+: sender.toList then
    .error (.nonCanonicalSender sender)
  else match Address.parse sender with
    | .ok a => .ok a
    | .error e => .error (.invalidSender e)

/-- The sender, if the message is well formed and its sender signed it. -/
def validate (m : Message) : Except MessageError Address := do
  if m.body.method = "" then throw .emptyMethod
  let declared ← declaredSender m.body.sender
  let data ← m.body.signingBytes
  let signature ← m.signatureBytes
  match recover signature data with
  | .error e => throw (.signature e)
  | .ok recovered =>
    if recovered ≠ declared then throw (.senderMismatch declared recovered)
    return recovered

end Message

end SecretsGateway
