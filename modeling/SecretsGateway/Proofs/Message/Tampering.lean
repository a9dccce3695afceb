import Mathlib.Data.List.DropRight
import SecretsGateway.Proofs.Message.Signed
import SecretsGateway.Proofs.Signing.Collision

/-!
# What a signature binds

The texts of a body are filled up with zeros before they are signed. A text may end in NUL characters itself, and then the
signing bytes do not tell where it ended: two bodies have the same signing bytes exactly if they differ in nothing but the
NUL characters at the ends of their texts (`MessageBody.Alike`, `MessageBody.signingBytes_eq_iff`). So a signature binds the
payload, the sender and everything else up to those characters (`Message.signature_binds`), and it does not bind them
(`Message.Tampered.validate_longer`).
-/

namespace SecretsGateway

namespace Bytes

/-- A byte string without the zeros at its end. -/
def trimmed (bs : Bytes) : Bytes := bs.rdropWhile (· == 0)

variable {bs cs : Bytes} {width : Nat}

private theorem trimmed_concat_zero (bs : Bytes) : trimmed (bs ++ [0]) = trimmed bs := List.rdropWhile_concat_pos _ _ _ rfl

private theorem trimmed_concat_of_ne {b : UInt8} (bs : Bytes) (h : b ≠ 0) : trimmed (bs ++ [b]) = bs ++ [b] := by
  apply List.rdropWhile_concat_neg
  simpa using h

private theorem trimmed_append_zeros (bs : Bytes) (count : Nat) : trimmed (bs ++ List.replicate count 0) = trimmed bs := by
  induction count with
  | zero => rw [List.replicate_zero, List.append_nil]
  | succ count ih => rw [List.replicate_succ', ← List.append_assoc, trimmed_concat_zero, ih]

/-- Only zeros are missing. -/
private theorem exists_eq_trimmed_append (bs : Bytes) : ∃ count, bs = trimmed bs ++ List.replicate count 0 := by
  induction bs using List.reverseRecOn with
  | nil => exact ⟨0, rfl⟩
  | append_singleton bs b ih =>
    by_cases hb : b = 0
    · obtain ⟨count, hcount⟩ := ih
      refine ⟨count + 1, ?_⟩
      rw [hb, trimmed_concat_zero, List.replicate_succ', ← List.append_assoc, ← hcount]
    · refine ⟨0, ?_⟩
      rw [trimmed_concat_of_ne bs hb, List.replicate_zero, List.append_nil]

@[simp] theorem length_padRight (h : bs.length ≤ width) : (bs.padRight width).length = width := by
  rw [padRight, List.length_append, List.length_replicate]
  omega

private theorem trimmed_padRight (width : Nat) (bs : Bytes) : trimmed (bs.padRight width) = trimmed bs :=
  trimmed_append_zeros bs _

private theorem padRight_trimmed (h : bs.length ≤ width) : (trimmed bs).padRight width = bs.padRight width := by
  obtain ⟨count, hcount⟩ := exists_eq_trimmed_append bs
  have hlength := congrArg List.length hcount
  rw [List.length_append, List.length_replicate] at hlength
  have hzeros : width - (trimmed bs).length = count + (width - bs.length) := by omega
  rw [padRight, padRight, hzeros, List.replicate_add, ← List.append_assoc, ← hcount]

/-- Byte strings that are filled up look the same exactly if they differ in nothing but zeros at their ends. -/
private theorem padRight_eq_iff (hb : bs.length ≤ width) (hc : cs.length ≤ width) :
    bs.padRight width = cs.padRight width ↔ trimmed bs = trimmed cs := by
  constructor
  · intro h
    rw [← trimmed_padRight width bs, h, trimmed_padRight]
  · intro h
    rw [← padRight_trimmed hb, h, padRight_trimmed hc]

end Bytes

namespace Text

/-- A text without the NUL characters at its end. -/
def unpadded (s : String) : String := String.ofList (s.toList.rdropWhile (· == '\x00'))

private theorem encodeChar_nul : String.utf8EncodeChar '\x00' = [0] := rfl

/-- The last byte of a character is zero for no character but NUL. -/
private theorem exists_encodeChar_eq_concat {c : Char} (h : c ≠ '\x00') :
    ∃ bs b, String.utf8EncodeChar c = bs ++ [b] ∧ b ≠ 0 := by
  rcases Utf8.encodeChar_cases c with ⟨b, -, hb⟩ | hall
  · refine ⟨[], b, hb, ?_⟩
    rintro rfl
    have hsame : Utf8.encode (String.ofList [c]) = Utf8.encode (String.ofList ['\x00']) := by
      simp only [Utf8.encode_ofList, List.flatMap_singleton, hb, encodeChar_nul]
    have hlist := String.ofList_injective (Utf8.encode_injective hsame)
    exact h (List.singleton_inj.1 hlist)
  · have hne : String.utf8EncodeChar c ≠ [] := by
      intro hnil
      have hsize := c.utf8Size_pos
      rw [← String.length_utf8EncodeChar, hnil] at hsize
      exact Nat.lt_irrefl 0 hsize
    refine ⟨_, _, (List.dropLast_append_getLast hne).symm, ?_⟩
    intro hzero
    have hlast := hall _ (List.getLast_mem hne)
    rw [hzero] at hlast
    exact absurd hlast (by decide)

/-- The bytes of a text end in zeros where the text ends in NUL characters. -/
private theorem trimmed_encode (s : String) : Bytes.trimmed (Utf8.encode s) = Utf8.encode (unpadded s) := by
  obtain ⟨cs, rfl⟩ : ∃ cs, String.ofList cs = s := ⟨s.toList, String.ofList_toList⟩
  rw [unpadded, String.toList_ofList]
  simp only [Utf8.encode_ofList]
  induction cs using List.reverseRecOn with
  | nil => rfl
  | append_singleton cs c ih =>
    rw [List.flatMap_append, List.flatMap_singleton]
    by_cases hc : c = '\x00'
    · rw [hc, encodeChar_nul, Bytes.trimmed_concat_zero, ih, List.rdropWhile_concat_pos _ _ _ rfl]
    · obtain ⟨bs, b, hbs, hb⟩ := exists_encodeChar_eq_concat hc
      rw [List.rdropWhile_concat_neg _ _ _ (by simpa using hc), List.flatMap_append, List.flatMap_singleton, hbs,
        ← List.append_assoc, Bytes.trimmed_concat_of_ne _ hb]

private theorem trimmed_encode_eq_iff {s t : String} :
    Bytes.trimmed (Utf8.encode s) = Bytes.trimmed (Utf8.encode t) ↔ unpadded s = unpadded t := by
  rw [trimmed_encode, trimmed_encode]
  exact ⟨Utf8.encode_injective, fun h => h ▸ rfl⟩

/-- Texts of the same size that differ in nothing but NUL characters at their ends are the same. -/
private theorem eq_of_unpadded_eq {s t : String} (h : unpadded s = unpadded t) (hsize : s.utf8ByteSize = t.utf8ByteSize) :
    s = t := by
  have hs : (Utf8.encode s).length ≤ s.utf8ByteSize := Nat.le_of_eq (Utf8.length_encode s)
  have ht : (Utf8.encode t).length ≤ s.utf8ByteSize := hsize ▸ Nat.le_of_eq (Utf8.length_encode t)
  have hpad := (Bytes.padRight_eq_iff hs ht).2 (trimmed_encode_eq_iff.2 h)
  simp only [Bytes.padRight, Utf8.length_encode, hsize, Nat.sub_self, List.replicate_zero, List.append_nil] at hpad
  exact Utf8.encode_injective hpad

end Text

namespace MessageBody

/-- The bodies differ in nothing but the NUL characters at the ends of their texts. -/
structure Alike (b b' : MessageBody) : Prop where
  messageId : Text.unpadded b.messageId = Text.unpadded b'.messageId
  method : Text.unpadded b.method = Text.unpadded b'.method
  donId : Text.unpadded b.donId = Text.unpadded b'.donId
  sender : Text.unpadded b.sender = Text.unpadded b'.sender
  payloadBytes : b.payloadBytes = b'.payloadBytes

/-- The four texts of a body. -/
def texts (b : MessageBody) : List String := [b.messageId, b.method, b.donId, b.sender]

variable {b b' : MessageBody}

/-- Bodies that are alike, and have no text that ends in a NUL character, have the same texts. -/
private theorem Alike.texts_eq (h : b.Alike b') (hb : ∀ t ∈ b.texts, Text.unpadded t = t)
    (hb' : ∀ t ∈ b'.texts, Text.unpadded t = t) : b.texts = b'.texts := by
  simp only [texts, List.mem_cons, List.not_mem_nil, or_false, forall_eq_or_imp, forall_eq] at hb hb' ⊢
  rw [← hb.1, ← hb.2.1, ← hb.2.2.1, ← hb.2.2.2, h.messageId, h.method, h.donId, h.sender, hb'.1, hb'.2.1, hb'.2.2.1,
    hb'.2.2.2]

private theorem padRight_text_eq_iff {s t : String} {width : Nat} (hs : s.utf8ByteSize ≤ width)
    (ht : t.utf8ByteSize ≤ width) :
    (Utf8.encode s).padRight width = (Utf8.encode t).padRight width ↔ Text.unpadded s = Text.unpadded t := by
  rw [← Utf8.length_encode] at hs ht
  rw [Bytes.padRight_eq_iff hs ht, Text.trimmed_encode_eq_iff]

private theorem length_padRight_text {s : String} {width : Nat} (h : s.utf8ByteSize ≤ width) :
    ((Utf8.encode s).padRight width).length = width := by
  rw [← Utf8.length_encode] at h
  exact Bytes.length_padRight h

/-- Bodies are signed as the same bytes exactly if they are alike. -/
theorem signingBytes_eq_iff (h : b.Fits) (h' : b'.Fits) : b.signingBytes = b'.signingBytes ↔ b.Alike b' := by
  rw [h.signingBytes, h'.signingBytes, Except.ok.injEq]
  constructor
  -- every part has the same width on both sides, so the parts can be cut off one by one from the right
  · intro heq
    have hid := length_padRight_text h.messageId
    have hid' := length_padRight_text h'.messageId
    have hmethod := length_padRight_text h.method
    have hmethod' := length_padRight_text h'.method
    have hdon := length_padRight_text h.donId
    have hdon' := length_padRight_text h'.donId
    have hsender := length_padRight_text h.sender
    have hsender' := length_padRight_text h'.sender
    obtain ⟨heq, hpayload⟩ := List.append_inj heq (by simp only [List.length_append]; omega)
    obtain ⟨heq, hsame⟩ := List.append_inj heq (by simp only [List.length_append]; omega)
    obtain ⟨heq, hdons⟩ := List.append_inj heq (by simp only [List.length_append]; omega)
    obtain ⟨hids, hmethods⟩ := List.append_inj heq (by omega)
    exact ⟨(padRight_text_eq_iff h.messageId h'.messageId).1 hids, (padRight_text_eq_iff h.method h'.method).1 hmethods,
      (padRight_text_eq_iff h.donId h'.donId).1 hdons, (padRight_text_eq_iff h.sender h'.sender).1 hsame, hpayload⟩
  · intro halike
    rw [(padRight_text_eq_iff h.messageId h'.messageId).2 halike.messageId,
      (padRight_text_eq_iff h.method h'.method).2 halike.method, (padRight_text_eq_iff h.donId h'.donId).2 halike.donId,
      (padRight_text_eq_iff h.sender h'.sender).2 halike.sender, halike.payloadBytes]

/-- A body that has signing bytes fits. -/
private theorem fits_of_signingBytes {data : Bytes} (h : b.signingBytes = .ok data) : b.Fits := by
  by_contra hfits
  obtain ⟨field, length, max, herror⟩ := signingBytes_of_not_fits hfits
  rw [herror] at h
  cases h

end MessageBody

namespace Message

/-- Hashes coincide where a signature is used for the signing bytes of two bodies. -/
def Collide (signature : String) (b b' : MessageBody) : Prop :=
  ∃ bytes data data', (Message.mk signature b).signatureBytes = .ok bytes ∧ b.signingBytes = .ok data ∧
    b'.signingBytes = .ok data' ∧ Collision bytes data data'

variable {b b' : MessageBody} {signature : String} {a : Address}

/-- A signature that is valid for two bodies gives the account for the signing bytes of both. -/
theorem alike_or_collide (h : (Message.mk signature b).validate = .ok a)
    (h' : (Message.mk signature b').validate = .ok a) : b.Alike b' ∨ Collide signature b b' := by
  obtain ⟨-, data, bytes, hdata, hbytes, hrecover⟩ := exists_of_validate h
  obtain ⟨-, data', bytes', hdata', hbytes', hrecover'⟩ := exists_of_validate h'
  have hsame : bytes = bytes' := Except.ok.inj (hbytes.symm.trans hbytes')
  rw [← hsame] at hrecover'
  refine (eq_or_collision hrecover hrecover').imp (fun heq => ?_) fun hcollision =>
    ⟨bytes, data, data', hbytes, hdata, hdata', hcollision⟩
  have hfits := MessageBody.fits_of_signingBytes hdata
  have hfits' := MessageBody.fits_of_signingBytes hdata'
  rw [← MessageBody.signingBytes_eq_iff hfits hfits', hdata, hdata', heq]

/-- What a signature binds. Two bodies are signed as the same bytes if and only if both fit and they differ in nothing but
the NUL characters at the ends of their texts; if there are none, the texts are the same. So if a signature is valid for two
bodies as that of one account, then the bodies differ in nothing else, and their senders not even in this, or two hashes
coincide: those of their signing bytes, or those of the two keys to which the signature leads. A body that names another account
is never valid as that of the first. -/
theorem signature_binds (b b' : MessageBody) :
    ((∃ data, b.signingBytes = .ok data ∧ b'.signingBytes = .ok data) ↔ b.Fits ∧ b'.Fits ∧ b.Alike b') ∧
    (b.Alike b' → (∀ t ∈ b.texts ++ b'.texts, Text.unpadded t = t) →
      b.texts = b'.texts ∧ b.payloadBytes = b'.payloadBytes) ∧
    ∀ signature a, (Message.mk signature b).validate = .ok a →
      (∀ a', (Message.mk signature b').validate = .ok a' → Address.parse b'.sender = .ok a') ∧
      ((Message.mk signature b').validate = .ok a →
        b.Alike b' ∧ b.sender = b'.sender ∨ Collide signature b b') := by
  refine ⟨?_, ?_, ?_⟩
  · constructor
    · rintro ⟨data, hdata, hdata'⟩
      have hfits := MessageBody.fits_of_signingBytes hdata
      have hfits' := MessageBody.fits_of_signingBytes hdata'
      exact ⟨hfits, hfits', (MessageBody.signingBytes_eq_iff hfits hfits').1 (hdata.trans hdata'.symm)⟩
    · rintro ⟨hfits, hfits', halike⟩
      have hsame := (MessageBody.signingBytes_eq_iff hfits hfits').2 halike
      exact ⟨_, hfits.signingBytes, hsame ▸ hfits.signingBytes⟩
  · intro halike hunpadded
    refine ⟨halike.texts_eq ?_ ?_, halike.payloadBytes⟩
    · exact fun t ht => hunpadded t (List.mem_append_left _ ht)
    · exact fun t ht => hunpadded t (List.mem_append_right _ ht)
  · intro signature a h
    refine ⟨fun a' h' => (size_and_parse_of_declaredSender (exists_of_validate h').1).2, fun h' => ?_⟩
    refine (alike_or_collide h h').imp_left fun halike => ⟨halike, ?_⟩
    -- a declared sender has all of its forty-two bytes, so there is no room for a NUL character
    have hsize := (size_and_parse_of_declaredSender (exists_of_validate h).1).1
    have hsize' := (size_and_parse_of_declaredSender (exists_of_validate h').1).1
    exact Text.eq_of_unpadded_eq halike.sender (hsize.trans hsize'.symm)

namespace Tampered

open Sample (parts)

/-- The sample with a NUL character at the end of its id. -/
def longer : MessageBody := { Sample.body with messageId := "m-1\x00" }

private theorem signingBytes_longer : Sample.body.signingBytes = longer.signingBytes := by
  have hfits : longer.Fits := ⟨by decide, by decide, by decide, Sample.fits_body.sender⟩
  exact (MessageBody.signingBytes_eq_iff Sample.fits_body hfits).2 ⟨by decide +kernel, rfl, rfl, rfl, rfl⟩

/-- Both messages are valid under the signature. -/
private theorem validate_signed (b : MessageBody) (hsame : Sample.body.signingBytes = b.signingBytes)
    (hsender : b.sender = Address.five.toHex) (hmethod : b.method ≠ "") :
    (Message.mk (Hex.marked parts.toBytes) b).validate = .ok .five := by
  obtain ⟨data, hdata, -, hsign, hkey⟩ := Sample.signed_body
  have hrecover := SigningKey.recover_of_sign hsign hkey
  rw [SigningKey.address_five] at hrecover
  have hdeclared : declaredSender b.sender = .ok .five := hsender ▸ declaredSender_toHex .five
  exact validate_eq_ok hmethod hdeclared (hsame ▸ hdata) (signatureBytes_of_marked rfl) hrecover

/-- A message that is signed and changed afterwards is valid as that of the signer. -/
theorem validate_longer : Sample.body.messageId ≠ longer.messageId ∧
    Message.sign ⟨"", Sample.body⟩ .five = .ok ⟨Hex.marked parts.toBytes, Sample.body⟩ ∧
    (∃ data, Sample.body.signingBytes = .ok data ∧ longer.signingBytes = .ok data) ∧
    (Message.mk (Hex.marked parts.toBytes) longer).validate = .ok SigningKey.five.address := by
  obtain ⟨data, hdata, -, hsign, -⟩ := Sample.signed_body
  refine ⟨by decide, sign_of_ok hdata hsign, ⟨data, hdata, signingBytes_longer ▸ hdata⟩, ?_⟩
  rw [SigningKey.address_five]
  exact validate_signed longer signingBytes_longer rfl (by decide)

/-- The signature binds both, and they are alike. -/
theorem alike_longer : (∃ data, Sample.body.signingBytes = .ok data ∧ longer.signingBytes = .ok data) ∧
    Sample.body.Alike longer ∧ Address.parse longer.sender = .ok .five := by
  obtain ⟨data, hdata, -⟩ := Sample.signed_body
  have hvalid := validate_signed Sample.body rfl rfl (by decide)
  have hvalid' := validate_signed longer signingBytes_longer rfl (by decide)
  have hboth : ∃ data, Sample.body.signingBytes = .ok data ∧ longer.signingBytes = .ok data :=
    ⟨data, hdata, signingBytes_longer ▸ hdata⟩
  obtain ⟨hiff, -, hsigned⟩ := signature_binds Sample.body longer
  exact ⟨hboth, (hiff.1 hboth).2.2, (hsigned _ _ hvalid).1 _ hvalid'⟩

end Tampered

end Message

end SecretsGateway
