import SecretsGateway.Proofs.Json.Accepted
import SecretsGateway.Proofs.Message.Layout
import SecretsGateway.Proofs.Message.Wire

/-!
# Messages that were received

A payload that was read is a raw value and not `null`, which is read as no payload. So a received message can be passed on:
whatever its spelling was at first, the same message is read at the next end of the wire (`Message.reencode_received`).
-/

namespace SecretsGateway

open Json (IsRaw nullText Member.keeps_of exists_of_decode)

namespace MessageBody

/-- A payload is told from no payload on the wire. -/
def Kept (payload : Option Bytes) : Prop := ∀ p ∈ payload, IsRaw p ∧ p ≠ nullText

/-- A payload comes into a draft by being read, and the other members leave it alone. -/
private theorem keeps_payload : ∀ m ∈ shape.members, m.Keeps fun d => ∀ found ∈ d.payload, Kept found := by
  simp only [shape, List.forall_mem_cons]
  refine ⟨?_, ?_, ?_, ?_, ?_, nofun⟩
  · exact Member.keeps_of fun d s a rest hd _ => hd
  · exact Member.keeps_of fun d s a rest hd _ => hd
  · exact Member.keeps_of fun d s a rest hd _ => hd
  · exact Member.keeps_of fun d s a rest hd _ => hd
  · refine Member.keeps_of fun d s a rest _ hread found hfound => ?_
    cases hfound
    exact Json.isRaw_of_optional hread

private theorem kept_of_read {s rest : Bytes} {b : MessageBody} (h : shape.read s = .ok (b, rest)) : Kept b.payload := by
  have hstart : ∀ found ∈ shape.start.payload, Kept found := nofun
  obtain ⟨d, hd, hfinish⟩ := Json.Shape.exists_of_read hstart keeps_payload h
  obtain ⟨messageId, -, hfinish⟩ := exists_of_bind_eq_ok hfinish
  obtain ⟨method, -, hfinish⟩ := exists_of_bind_eq_ok hfinish
  obtain ⟨donId, -, hfinish⟩ := exists_of_bind_eq_ok hfinish
  cases hfinish
  show Kept (d.payload.getD none)
  cases hpayload : d.payload with
  | none => nofun
  | some found => exact hd found hpayload

end MessageBody

namespace Message

private theorem keeps_body : ∀ m ∈ shape.members, m.Keeps fun d => ∀ b ∈ d.body, MessageBody.Kept b.payload := by
  simp only [shape, List.forall_mem_cons]
  refine ⟨Member.keeps_of fun d s a rest hd _ => hd, ?_, nofun⟩
  refine Member.keeps_of fun d s a rest _ hread b hb => ?_
  cases hb
  exact MessageBody.kept_of_read hread

/-- The payload of a received message is a raw value, and it is not `null`. -/
private theorem kept_of_decode {document : Bytes} {m : Message} (h : decode document = .ok m) :
    MessageBody.Kept m.body.payload := by
  have hread : Json.decode shape.read document = .ok m := by
    unfold decode at h
    cases hread : Json.decode shape.read document with
    | error e =>
      rw [hread] at h
      cases h
    | ok m' =>
      rw [hread] at h
      cases h
      rfl
  obtain ⟨rest, hread⟩ := exists_of_decode hread
  have hstart : ∀ b ∈ shape.start.body, MessageBody.Kept b.payload := nofun
  obtain ⟨d, hd, hfinish⟩ := Json.Shape.exists_of_read hstart keeps_body hread
  cases hbody : d.body with
  | none =>
    simp only [shape, hbody] at hfinish
    cases hfinish
  | some b =>
    simp only [shape, hbody] at hfinish
    cases hfinish
    exact hd b hbody

theorem decode_encode_of_kept {m : Message} (h : MessageBody.Kept m.body.payload) : decode m.encode = .ok m := by
  rw [decode_encode fun p hp => (h p hp).1, MessageBody.delivered_of_ne fun hnull => (h nullText hnull).2 rfl]

/-- Whatever document a message was read from, the message is read from its own encoding with the same signature, the same
texts, and the same payload or none. So what is signed is the same, the message is judged in the same way, and its encoding is
not changed by encoding it once more. -/
theorem reencode_received {document : Bytes} {m : Message} (h : decode document = .ok m) :
    ∃ m', decode m.encode = .ok m' ∧ m'.signature = m.signature ∧ m'.body.messageId = m.body.messageId ∧
      m'.body.method = m.body.method ∧ m'.body.donId = m.body.donId ∧ m'.body.sender = m.body.sender ∧
      m'.body.payload = m.body.payload ∧ m'.body.signingBytes = m.body.signingBytes ∧ m'.validate = m.validate ∧
      m'.encode = m.encode :=
  ⟨m, decode_encode_of_kept (kept_of_decode h), rfl, rfl, rfl, rfl, rfl, rfl, rfl, rfl, rfl⟩

/-- A message without signature and sender, with blanks, an escape, a member that nobody knows, and a payload that keeps its
blanks and the spelling of its number. -/
def Sample.spelled : Bytes :=
  Utf8.encode ("\x7b \"later\": [null, \x7b\x7d ], \"body\": \x7b\"payload\": [1 , -2.50e1], \"don_id\": \"don-1\"," ++
    "\"method\" :\"secrets_list\", \"message_id\":\"m\\u002d1\"\x7d \x7d ")

theorem reencode_spelled : ∃ m m', decode Sample.spelled = .ok m ∧ m.body.messageId = "m-1" ∧
    m.body.payload = some (Utf8.encode "[1 , -2.50e1]") ∧ decode m.encode = .ok m' ∧ m'.body.payload = m.body.payload ∧
    m'.validate = m.validate ∧ m'.encode = m.encode := by
  have hread : (decode Sample.spelled).toOption =
      some ⟨"", "m-1", "secrets_list", "don-1", "", some (Utf8.encode "[1 , -2.50e1]")⟩ := by decide +kernel
  cases hdecode : decode Sample.spelled with
  | error e =>
    rw [hdecode] at hread
    cases hread
  | ok m =>
    rw [hdecode] at hread
    cases hread
    obtain ⟨m', hm', -, -, -, -, -, hpayload, -, hvalidate, hencode⟩ := reencode_received hdecode
    exact ⟨_, m', rfl, rfl, rfl, hm', hpayload, hvalidate, hencode⟩

end Message

end SecretsGateway
