import SecretsGateway.Proofs.Message.Layout
import SecretsGateway.Proofs.Signing

/-!
# Signed messages are believed

An account is read back from its written form, and so are the bytes of a signature. Therefore a message that names the
account of a key as its sender, and is signed with this key, is judged valid, and the account is its sender
(`Message.validate_of_sign`).
-/

namespace SecretsGateway

namespace Address

variable (a : Address)

theorem toList_toHex : a.toHex.toList = '0' :: 'x' :: Hex.encode a.bytes := by
  rw [toHex, Hex.marked, String.toList_ofList]

private theorem utf8ByteSize_digits : (String.ofList (Hex.encode a.bytes)).utf8ByteSize = 40 := by
  have hmarked := Hex.utf8ByteSize_marked a.bytes
  rw [a.length_bytes, Hex.marked, ← Utf8.length_encode, Utf8.encode_ofList, List.flatMap_cons, List.flatMap_cons,
    List.length_append, List.length_append] at hmarked
  have hzero : (String.utf8EncodeChar '0').length = 1 := rfl
  have hx : (String.utf8EncodeChar 'x').length = 1 := rfl
  rw [← Utf8.length_encode, Utf8.encode_ofList]
  omega

/-- An account is read back from its written form. -/
theorem parse_toHex : parse a.toHex = .ok a := by
  have hbytes : ofBytes? a.bytes = some a := by
    rw [ofBytes?, dif_pos a.length_bytes]
  simp only [parse, toList_toHex, unmarked, utf8ByteSize_digits, Hex.decode?_encode, Option.bind_some, hbytes, ne_eq,
    not_true_eq_false, ↓reduceIte]

end Address

namespace Message

variable {m m' : Message} {key : SigningKey}

/-- The account that a written account declares. -/
theorem declaredSender_toHex (a : Address) : declaredSender a.toHex = .ok a := by
  have hmark : ['0', 'x'] <+: a.toHex.toList := ⟨Hex.encode a.bytes, (Address.toList_toHex a).symm⟩
  have hsize := a.utf8ByteSize_toHex
  have hparse := a.parse_toHex
  generalize a.toHex = sender at hmark hsize hparse
  unfold declaredSender
  have hfull : ¬ (sender.utf8ByteSize ≠ MessageBody.senderWidth ∨ ¬ ['0', 'x'] <+: sender.toList) := by
    rintro (h | h)
    · exact h hsize
    · exact h hmark
  rw [if_neg hfull, hparse]

theorem signatureBytes_of_marked {signature : Bytes} (h : m.signature = Hex.marked signature) :
    m.signatureBytes = .ok signature := by
  have hlist : (Hex.marked signature).toList = '0' :: 'x' :: Hex.encode signature := String.toList_ofList
  unfold signatureBytes
  rw [h, hlist, Hex.unmarked, Hex.decode?_encode]

theorem validate_eq_ok {a : Address} {data signature : Bytes} (hmethod : m.body.method ≠ "")
    (hsender : declaredSender m.body.sender = .ok a) (hdata : m.body.signingBytes = .ok data)
    (hsignature : m.signatureBytes = .ok signature) (hrecover : recover signature data = .ok a) : m.validate = .ok a := by
  unfold validate
  rw [if_neg hmethod, hsender, hdata, hsignature]
  simp only [ok_bind, hrecover, ne_eq, not_true_eq_false, ↓reduceIte]
  rfl

theorem validate_of_mismatch {a a' : Address} {data signature : Bytes} (hmethod : m.body.method ≠ "")
    (hsender : declaredSender m.body.sender = .ok a) (hdata : m.body.signingBytes = .ok data)
    (hsignature : m.signatureBytes = .ok signature) (hrecover : recover signature data = .ok a') (hne : a' ≠ a) :
    m.validate = .error (.senderMismatch a a') := by
  unfold validate
  rw [if_neg hmethod, hsender, hdata, hsignature]
  simp only [ok_bind, hrecover, ne_eq, hne, not_false_eq_true, ↓reduceIte]
  rfl

/-- A sender is declared in full: in forty-two bytes that spell the account. -/
theorem size_and_parse_of_declaredSender {sender : String} {a : Address} (h : declaredSender sender = .ok a) :
    sender.utf8ByteSize = MessageBody.senderWidth ∧ Address.parse sender = .ok a := by
  unfold declaredSender at h
  split at h
  · cases h
  · next hfull =>
    refine ⟨Decidable.not_not.1 (not_or.1 hfull).1, ?_⟩
    split at h
    · next hparse =>
      cases h
      exact hparse
    · cases h

/-- What a valid message consists of. -/
theorem exists_of_validate {a : Address} (h : m.validate = .ok a) :
    declaredSender m.body.sender = .ok a ∧ ∃ data signature, m.body.signingBytes = .ok data ∧
      m.signatureBytes = .ok signature ∧ recover signature data = .ok a := by
  unfold validate at h
  split at h
  · cases h
  · obtain ⟨declared, hsender, h⟩ := exists_of_bind_eq_ok h
    obtain ⟨data, hdata, h⟩ := exists_of_bind_eq_ok h
    obtain ⟨signature, hsignature, h⟩ := exists_of_bind_eq_ok h
    cases hrecover : recover signature data with
    | error e =>
      rw [hrecover] at h
      cases h
    | ok recovered =>
      rw [hrecover] at h
      by_cases hsame : recovered = declared
      · simp only [hsame, ne_eq, not_true_eq_false, ↓reduceIte] at h
        cases h
        exact ⟨hsender, data, signature, hdata, hsignature, hsame ▸ hrecover⟩
      · simp only [ne_eq, hsame, not_false_eq_true, ↓reduceIte] at h
        cases h

/-- A message that is signed with the key of its sender is valid, and the account of the key is its sender. -/
theorem validate_of_sign (h : m.sign key = .ok m') (hmethod : m.body.method ≠ "") (hsender : m.body.sender = key.address.toHex)
    (hkey : ∀ data, m.body.signingBytes = .ok data → key.Recovers data) : m'.validate = .ok key.address := by
  obtain ⟨data, signature, hdata, hsign, rfl⟩ := exists_of_sign h
  have hdeclared : declaredSender m.body.sender = .ok key.address := by
    rw [hsender]
    exact declaredSender_toHex key.address
  have hrecover := SigningKey.recover_of_sign hsign (hkey data hdata)
  exact validate_eq_ok hmethod hdeclared hdata (signatureBytes_of_marked rfl) hrecover

end Message

/-- What a key signs of a body, by the evaluation of the digest, of the signature, and of the point on the curve. -/
theorem MessageBody.exists_signed {b : MessageBody} {key : SigningKey} {digest : Bytes} {sig : Signature}
    (hdigest : b.signingBytes.toOption.map Keccak.Flat.digest = some digest)
    (hsig : (key.signDigest digest).toOption = some sig) (hv : sig.v < 2)
    (hp : recoverPoint sig.r sig.s (decide (sig.v = 1)) digest = some key.publicKey) :
    ∃ data, b.signingBytes = .ok data ∧ Keccak.digest data = digest ∧ key.sign data = .ok sig.toBytes ∧
      key.Recovers data := by
  have hsign := SigningKey.signDigest_eq_ok hsig
  cases hdata : b.signingBytes with
  | error e =>
    rw [hdata] at hdigest
    cases hdigest
  | ok data =>
    rw [hdata] at hdigest
    have hd : Keccak.digest data = digest := (Keccak.digest_eq data).trans (Option.some.inj hdigest)
    exact ⟨data, rfl, hd, SigningKey.sign_eq_ok hd hsign, SigningKey.recovers_of_signDigest hd hsign hv hp⟩

namespace Message.Sample

/-- A body without a payload, whose sender is the account of the key five. -/
def body : MessageBody := ⟨"m-1", "secrets_list", "don-1", Address.five.toHex, none⟩

/-- The signature of the key five. -/
def parts : Signature :=
  ⟨101852181224662914397457022564773038876623356569444875127604055803927940445468,
   599652778482621459321912108586053606273863778300016430583124379507386179817, 1⟩

/-- The digest of what is signed. -/
def digest : Bytes :=
  [131, 104, 190, 178, 244, 137, 197, 167, 14, 241, 22, 98, 132, 98, 169, 18, 12, 241, 156, 157, 166, 239, 39, 232, 86, 88,
   29, 214, 117, 43, 167, 157]

theorem fits_body : body.Fits :=
  ⟨by decide, by decide, by decide, Nat.le_of_eq (Address.utf8ByteSize_toHex .five)⟩

/-- The key five signs the body, and is recovered from its signature. -/
theorem signed_body : ∃ data, body.signingBytes = .ok data ∧ Keccak.digest data = digest ∧
    SigningKey.five.sign data = .ok parts.toBytes ∧ SigningKey.five.Recovers data := by
  have hsig : (SigningKey.five.signDigest digest).toOption = some parts := by decide +kernel
  exact MessageBody.exists_signed (by decide +kernel) hsig (by decide) (by decide +kernel)

end Message.Sample

end SecretsGateway
