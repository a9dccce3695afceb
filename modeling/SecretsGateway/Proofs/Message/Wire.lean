import SecretsGateway.Message.Wire
import SecretsGateway.Proofs.Json.Record

/-!
# Messages across the wire

A message is read back from its bytes with the same signature and the same texts, and its payload with the same bytes: only a
payload that is the word `null` is lost, for it is read as none (`Message.decode_encode`).
-/

namespace SecretsGateway

open Json (IsRaw Reads Gathers reads_string reads_optional reads_record)

/-- Where a payload may be left out, a raw value is kept as it stands, but `null` is read as none. -/
private theorem Json.reads_payload {p : Bytes} (h : IsRaw p) :
    Reads (optional written) (.written p) (if p = nullText then none else some p) := by
  by_cases hnull : p = nullText
  · subst hnull
    exact fun rest _ => rfl
  · rw [if_neg hnull]
    exact reads_optional (Json.reads_raw h) h hnull

/-- The body that arrives at the other end of the wire: without its payload if that is `null`. -/
def MessageBody.delivered (b : MessageBody) : MessageBody := { b with payload := b.payload.filter (· ≠ Json.nullText) }

namespace MessageBody

variable {b : MessageBody}

/-- Only `null` is lost. -/
theorem delivered_of_ne (h : b.payload ≠ some Json.nullText) : b.delivered = b := by
  obtain ⟨messageId, method, donId, sender, payload⟩ := b
  cases payload with
  | none => rfl
  | some p =>
    have hp : p ≠ Json.nullText := fun heq => h (congrArg some heq)
    simp [delivered, hp]

theorem delivered_of_eq (h : b.payload = some Json.nullText) : b.delivered = { b with payload := none } := by
  simp [delivered, h]

private theorem reads_toJson (h : ∀ p ∈ b.payload, IsRaw p) : Reads shape.read b.toJson b.delivered := by
  obtain ⟨messageId, method, donId, sender, payload⟩ := b
  have htexts : Gathers shape.members shape.start
      [("message_id", .text messageId), ("method", .text method), ("don_id", .text donId), ("sender", .text sender)]
      ⟨some messageId, some method, some donId, some sender, none⟩ :=
    .of rfl rfl (reads_string _ messageId) <| .of rfl rfl (reads_string _ method) <|
      .of rfl rfl (reads_string _ donId) <| .of rfl rfl (reads_string _ sender) <| .nil _
  cases payload with
  | none => exact reads_record (htexts.append (.nil _)) rfl
  | some p =>
    have hpayload : Gathers shape.members ⟨some messageId, some method, some donId, some sender, none⟩
        [("payload", .written p)]
        ⟨some messageId, some method, some donId, some sender, some (if p = Json.nullText then none else some p)⟩ :=
      .of rfl rfl (Json.reads_payload (h p rfl)) (.nil _)
    refine reads_record (htexts.append hpayload) ?_
    by_cases hnull : p = Json.nullText
    · rw [delivered_of_eq (congrArg some hnull), if_pos hnull]
      rfl
    · rw [delivered_of_ne (fun heq => hnull (Option.some.inj heq)), if_neg hnull]
      rfl

end MessageBody

/-- A message is read back from the wire, payload and all unless that is `null`. -/
theorem Message.decode_encode {m : Message} (h : ∀ p ∈ m.body.payload, IsRaw p) :
    decode m.encode = .ok { m with body := m.body.delivered } := by
  have hms : Gathers shape.members shape.start [("signature", .text m.signature), ("body", m.body.toJson)]
      ⟨some m.signature, some m.body.delivered⟩ :=
    .of rfl rfl (reads_string _ m.signature) <| .of rfl rfl (MessageBody.reads_toJson h) <| .nil _
  have hread : Json.decode shape.read m.encode = .ok { m with body := m.body.delivered } := (reads_record hms rfl).decode
  rw [decode, hread]
  rfl

end SecretsGateway
