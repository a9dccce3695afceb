import SecretsGateway.Method
import SecretsGateway.Proofs.Base64
import SecretsGateway.Proofs.Json.Record
import SecretsGateway.Proofs.Message.Signed

/-!
# Writes on the wire

What an owner signs is read back from the signed bytes, and so no two writes share them
(`WriteEnvelope.signingBytes_faithful`). The request that carries a write is read back in the same way, for it is made of the
same parts: accounts, integers of 64 bits and bytes in base64.
-/

namespace SecretsGateway

open Json (Reads Gathers reads_string reads_unsigned reads_signed reads_record)

theorem Address.reads_text (a : Address) : Reads Address.read (.text a.toHex) a := by
  intro rest hrest
  rw [Address.read, reads_string "a string" a.toHex rest hrest, Json.Result.andThen_ok]
  simp only [a.parse_toHex]

private theorem Json.reads_base64 (bs : Bytes) : Reads Json.base64 (.base64 bs) bs := by
  intro rest hrest
  have htext := Utf8.encode_ofList_ascii (Base64.forall_encode_lt bs)
  rw [Json.base64, Json.Value.base64, reads_string "a base64 encoded string" _ rest hrest, Json.Result.andThen_ok]
  simp only [htext, Base64.decode_encode]

namespace WriteEnvelope

private theorem reads_toJson (e : WriteEnvelope) : Reads shape.read e.toJson e := by
  have hms : Gathers shape.members shape.start
      [("address", .text e.address.toHex), ("slot_id", .int e.slot.toNat), ("payload", .base64 e.payload),
        ("version", .int e.version.toNat), ("expiration", .int e.expiration.toInt)]
      ⟨some e.address, some e.slot, some e.payload, some e.version, some e.expiration⟩ :=
    .of rfl rfl e.address.reads_text <| .of rfl rfl (reads_unsigned "u64" e.slot) <|
      .of rfl rfl (Json.reads_base64 e.payload) <| .of rfl rfl (reads_unsigned "u64" e.version) <|
      .of rfl rfl (reads_signed e.expiration) <| .nil _
  exact reads_record hms rfl

private theorem decode_signingBytes (e : WriteEnvelope) : decode e.signingBytes = .ok e := e.reads_toJson.decode

private theorem ofWrite_inj {key key' : SecretKey} {record record' : SecretRecord}
    (h : ofWrite key record = ofWrite key' record') : key = key' ∧ record = record' := by
  obtain ⟨owner, slot, version⟩ := key
  obtain ⟨expiration, payload⟩ := record
  cases h
  exact ⟨rfl, rfl⟩

/-- The signature of an owner is bound to the whole write. From the signed bytes of any envelope the envelope is read back.
So no two envelopes have the same signed bytes, and no two writes, in whatever part they differ. -/
theorem signingBytes_faithful :
    (∀ e, decode e.signingBytes = .ok e) ∧ Function.Injective signingBytes ∧
    ∀ key key' record record', (ofWrite key record).signingBytes = (ofWrite key' record').signingBytes →
      key = key' ∧ record = record' := by
  have hinj : Function.Injective signingBytes := by
    intro e e' hsame
    have hread := e.decode_signingBytes
    rw [hsame, e'.decode_signingBytes] at hread
    exact (Except.ok.inj hread).symm
  exact ⟨decode_signingBytes, hinj, fun key key' record record' hsame => ofWrite_inj (hinj hsame)⟩

end WriteEnvelope

namespace SetRequest

theorem sound_toJson (r : SetRequest) : r.toJson.Sound := ⟨trivial, trivial, trivial, trivial, trivial, trivial⟩

private theorem reads_toJson (r : SetRequest) : Reads shape.read r.toJson r := by
  have hms : Gathers shape.members shape.start
      [("slot_id", .int r.slot.toNat), ("version", .int r.version.toNat), ("expiration", .int r.expiration.toInt),
        ("payload", .base64 r.payload), ("signature", .base64 r.signature)]
      ⟨some r.slot, some r.version, some r.expiration, some r.payload, some r.signature⟩ :=
    .of rfl rfl (reads_unsigned "u64" r.slot) <| .of rfl rfl (reads_unsigned "u64" r.version) <|
      .of rfl rfl (reads_signed r.expiration) <| .of rfl rfl (Json.reads_base64 r.payload) <|
      .of rfl rfl (Json.reads_base64 r.signature) <| .nil _
  exact reads_record hms rfl

theorem write_toJson_ne_nullText (r : SetRequest) : r.toJson.write ≠ Json.nullText := by
  intro h
  cases h

/-- The request that carries a write is read back from the payload of a message. -/
theorem decode_write (r : SetRequest) : Method.set.decode r.toJson.write = .ok (.set r) := by
  have hread : Json.decode shape.read r.toJson.write = .ok r := r.reads_toJson.decode
  have hsome : r.toJson.write.isEmpty = false := rfl
  simp only [Method.decode, hsome, hread, Bool.false_eq_true, ↓reduceIte]

end SetRequest

end SecretsGateway
