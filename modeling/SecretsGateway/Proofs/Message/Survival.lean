import SecretsGateway.Proofs.Message.Tampering
import SecretsGateway.Proofs.Message.Wire

/-!
# Signatures across the wire

Whoever reads a signed message from the wire finds the same message, so the signature still holds: all texts and every raw
payload are kept byte by byte. The one exception is the payload `null`. It is signed as the four letters it is written with,
but it is read as no payload at all, and then nothing is left of it in the signing bytes (`Message.sign_survives`,
`Message.Lost.validate_lost`).
-/

namespace SecretsGateway

open Json (IsRaw nullText)

namespace MessageBody

/-- Whatever sound value a payload is set to, it is a raw value. -/
private theorem isRaw_withPayload (b : MessageBody) {v : Json.Value} (hv : v.Sound) :
    ∃ p, (b.withPayload v).payload = some p ∧ IsRaw p :=
  ⟨v.write, rfl, Json.isRaw_write hv⟩

/-- What is lost with the payload `null` was signed. -/
private theorem not_alike_delivered {b : MessageBody} (h : b.payload = some nullText) : ¬ b.Alike b.delivered := by
  intro halike
  have hbytes := halike.payloadBytes
  rw [delivered_of_eq h, payloadBytes, payloadBytes, h] at hbytes
  cases hbytes

private theorem Fits.delivered {b : MessageBody} (h : b.Fits) : b.delivered.Fits :=
  ⟨h.messageId, h.method, h.donId, h.sender⟩

/-- The signing bytes are the same at both ends of the wire, unless the payload is `null`. -/
private theorem signingBytes_delivered_iff {b : MessageBody} (h : b.Fits) :
    b.delivered.signingBytes = b.signingBytes ↔ b.payload ≠ some nullText := by
  constructor
  · intro hsame hnull
    exact not_alike_delivered hnull ((signingBytes_eq_iff h h.delivered).1 hsame.symm)
  · intro hkept
    rw [delivered_of_ne hkept]

end MessageBody

namespace Message

/-- A message whose sender is the account of a key, and whose texts fit, is signed with this key and is valid. From the wire
it is read back with its signature, and it is the same message with the same signing bytes, unless its payload is `null`. In
that case the payload is missing, the signing bytes are others, and for the signature to be valid two hashes would have to coincide.
The payload may be any raw value, and so is everything that a payload can be set to. -/
theorem sign_survives (key : SigningKey) (signature : String) (b : MessageBody) (hmethod : b.method ≠ "") (hfits : b.Fits)
    (hsender : b.sender = key.address.toHex) (hraw : ∀ p ∈ b.payload, IsRaw p)
    (hsign : ∀ data, b.signingBytes = .ok data → ∃ signed, key.sign data = .ok signed)
    (hkey : ∀ data, b.signingBytes = .ok data → key.Recovers data) :
    (∀ v : Json.Value, v.Sound → ∃ p, (b.withPayload v).payload = some p ∧ IsRaw p) ∧
    ∃ m m', sign ⟨signature, b⟩ key = .ok m ∧ m.body = b ∧ m.validate = .ok key.address ∧
      decode m.encode = .ok m' ∧ m'.signature = m.signature ∧
      (m'.body.signingBytes = m.body.signingBytes ↔ b.payload ≠ some nullText) ∧
      (b.payload ≠ some nullText → m' = m) ∧
      (b.payload = some nullText → m'.body = { b with payload := none } ∧
        (m'.validate = .ok key.address → Collide m.signature m.body m'.body)) := by
  refine ⟨fun v hv => b.isRaw_withPayload hv, ?_⟩
  obtain ⟨signed, hsigned⟩ := hsign _ hfits.signingBytes
  have hm := sign_of_ok (m := ⟨signature, b⟩) hfits.signingBytes hsigned
  have hvalid := validate_of_sign hm hmethod hsender hkey
  refine ⟨⟨Hex.marked signed, b⟩, ⟨Hex.marked signed, b.delivered⟩, hm, rfl, hvalid, decode_encode hraw, rfl,
    MessageBody.signingBytes_delivered_iff hfits, ?_, ?_⟩
  · intro hkept
    rw [MessageBody.delivered_of_ne hkept]
  · intro hnull
    refine ⟨MessageBody.delivered_of_eq hnull, fun hvalid' => ?_⟩
    exact (alike_or_collide hvalid hvalid').resolve_left (MessageBody.not_alike_delivered hnull)

namespace Paid

/-- The sample with a payload that keeps its blanks and the spelling of its number. -/
def body : MessageBody := { Sample.body with payload := some (Utf8.encode "[1 , -2.50e1]") }

private def parts : Signature :=
  ⟨67218021042456201252108661484264544099678119968200477939101993804145972397176,
   3747133710173232209604249303201197729553200315830002638198365280558425524407, 0⟩

private def digest : Bytes :=
  [118, 184, 135, 209, 161, 105, 233, 190, 151, 95, 113, 160, 77, 55, 44, 173, 43, 178, 120, 175, 215, 160, 0, 67, 14, 186,
   182, 118, 175, 210, 64, 133]

private theorem signed_body : ∃ data, body.signingBytes = .ok data ∧ Keccak.digest data = digest ∧
    SigningKey.five.sign data = .ok parts.toBytes ∧ SigningKey.five.Recovers data := by
  have hsig : (SigningKey.five.signDigest digest).toOption = some parts := by decide +kernel
  exact MessageBody.exists_signed (by decide +kernel) hsig (by decide) (by decide +kernel)

private theorem isRaw_payload : ∀ p ∈ body.payload, IsRaw p := by
  intro p hp
  cases hp
  have hwritten : (Json.written (Utf8.encode "[1 , -2.50e1]")).toOption = some (Utf8.encode "[1 , -2.50e1]", []) := by
    decide +kernel
  unfold IsRaw
  cases hread : Json.written (Utf8.encode "[1 , -2.50e1]") with
  | error e =>
    rw [hread] at hwritten
    cases hwritten
  | ok read =>
    rw [hread] at hwritten
    exact congrArg Except.ok (Option.some.inj hwritten)

/-- A message with a payload is the same at the other end of the wire, and it is valid there. -/
theorem survives_sample : body.Fits ∧ body.payload = some (Utf8.encode "[1 , -2.50e1]") ∧ ∃ m, sign ⟨"", body⟩ .five = .ok m ∧
    m.validate = .ok SigningKey.five.address ∧ decode m.encode = .ok m := by
  obtain ⟨data, hdata, -, hsign, hkey⟩ := signed_body
  have hfits : body.Fits := ⟨by decide, by decide, by decide, Sample.fits_body.sender⟩
  have hsender : body.sender = SigningKey.five.address.toHex := by
    rw [SigningKey.address_five]
    rfl
  have hsigned : ∀ data', body.signingBytes = .ok data' → ∃ signed, SigningKey.five.sign data' = .ok signed := by
    intro data' hdata'
    rw [hdata] at hdata'
    exact ⟨_, Except.ok.inj hdata' ▸ hsign⟩
  have hrecovers : ∀ data', body.signingBytes = .ok data' → SigningKey.five.Recovers data' := by
    intro data' hdata'
    rw [hdata] at hdata'
    exact Except.ok.inj hdata' ▸ hkey
  obtain ⟨-, m, m', hm, -, hvalid, hdecode, -, -, hkept, -⟩ := sign_survives .five "" body (by decide) hfits hsender
    isRaw_payload hsigned hrecovers
  have hsame := hkept (by decide +kernel)
  exact ⟨hfits, rfl, m, hm, hvalid, hsame ▸ hdecode⟩

end Paid

/-! ### A payload that is lost -/

namespace Lost

/-- The sample with the payload `null`. -/
def body : MessageBody := Sample.body.withPayload .null

/-- The signature of the key five. -/
def parts : Signature :=
  ⟨104066426842682297696183549167555275343204247281270980587635390966082347427398,
   44042513083955084959289512928950100021375680157398385857265885817157660818875, 0⟩

private def digest : Bytes :=
  [25, 16, 247, 185, 183, 195, 80, 81, 95, 117, 232, 126, 178, 126, 215, 226, 248, 165, 23, 76, 198, 1, 123, 154, 88, 20,
   70, 194, 136, 217, 225, 68]

private theorem signed_body : ∃ data, body.signingBytes = .ok data ∧ Keccak.digest data = digest ∧
    SigningKey.five.sign data = .ok parts.toBytes ∧ SigningKey.five.Recovers data := by
  have hsig : (SigningKey.five.signDigest digest).toOption = some parts := by decide +kernel
  exact MessageBody.exists_signed (by decide +kernel) hsig (by decide) (by decide +kernel)

/-- The public key that the signature stands for without the payload. -/
private def stranger : Secp256k1.Point :=
  .affine 14449627176024260709809519684875743202004385660655176060610430407798997514751
    63285418430754268681099215692296624856954095208525601400491352585522325849937

private theorem recover_sample {data : Bytes} (h : Keccak.digest data = Sample.digest) :
    recover parts.toBytes data = .ok stranger.address := by
  apply recover_toBytes (by decide) (by decide) (by decide)
  rw [h]
  decide +kernel

private theorem address_stranger : stranger.address ≠ .five := by
  rw [Secp256k1.Point.address, Keccak.digest_eq]
  decide +kernel

/-- A message with the payload `null` is signed and valid. It is read from the wire without the payload, with other signing
bytes, and another account is found to have signed it. -/
theorem validate_lost : ∃ m m', sign ⟨"", Lost.body⟩ .five = .ok m ∧ m.validate = .ok SigningKey.five.address ∧
    decode m.encode = .ok m' ∧ m'.body.signingBytes ≠ m.body.signingBytes ∧
    ∃ a, m'.validate = .error (.senderMismatch SigningKey.five.address a) := by
  obtain ⟨data, hdata, -, hsign, hkey⟩ := signed_body
  obtain ⟨data', hdata', hdigest', -⟩ := Sample.signed_body
  have hsender : Lost.body.sender = SigningKey.five.address.toHex := by
    rw [SigningKey.address_five]
    rfl
  have hm := sign_of_ok (m := ⟨"", Lost.body⟩) hdata hsign
  have hrecovers : ∀ bs, Lost.body.signingBytes = .ok bs → SigningKey.five.Recovers bs := by
    intro bs hbs
    rw [hdata] at hbs
    exact Except.ok.inj hbs ▸ hkey
  have hvalid := validate_of_sign hm (by decide) hsender hrecovers
  have hraw : ∀ p ∈ Lost.body.payload, IsRaw p := fun p hp => Option.some.inj hp ▸ Json.isRaw_write (v := .null) trivial
  have hdeclared : declaredSender Sample.body.sender = .ok SigningKey.five.address := by
    rw [SigningKey.address_five]
    exact declaredSender_toHex .five
  have hne : stranger.address ≠ SigningKey.five.address := by
    rw [SigningKey.address_five]
    exact address_stranger
  refine ⟨⟨Hex.marked parts.toBytes, Lost.body⟩, ⟨Hex.marked parts.toBytes, Sample.body⟩, hm, hvalid, decode_encode hraw, ?_,
    stranger.address, ?_⟩
  · have hfits : Lost.body.Fits := ⟨by decide, by decide, by decide, Sample.fits_body.sender⟩
    exact fun hsame => (MessageBody.signingBytes_delivered_iff hfits).1 hsame rfl
  · exact validate_of_mismatch (by decide) hdeclared hdata' (signatureBytes_of_marked rfl) (recover_sample hdigest') hne

end Lost

end Message

end SecretsGateway
