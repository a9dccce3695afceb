import SecretsGateway.Proofs.Message.Layout
import SecretsGateway.Proofs.Signing.Recovery

/-!
# Where the texts of a body are signed

What is signed of a body that fits has 298 bytes in front of the payload. Each text begins at an offset that does not depend on
the others, and after it there are zeros up to the next one (`MessageBody.LaidOut`). Signing writes only the signature, and
nothing at all if it fails (`Message.signing_laid_out`).
-/

namespace SecretsGateway

namespace MessageBody

namespace Field

/-- Where a text begins in what is signed. -/
def start : Field → Nat
  | messageId => 0
  | method => 128
  | donId => 192
  | sender => 256

/-- Where the next text begins, or the payload. -/
def stop : Field → Nat
  | messageId => 128
  | method => 192
  | donId => 256
  | sender => 298

variable (b : MessageBody)

/-- The texts in front of a text fill everything up to its start, and the text itself everything up to its stop. -/
private theorem exists_inOrder (f : Field) :
    ∃ earlier later, inOrder = earlier ++ f :: later ∧ (earlier.map width).sum = f.start ∧ f.start + f.width = f.stop := by
  cases f with
  | messageId => exact ⟨[], _, rfl, rfl, rfl⟩
  | method => exact ⟨[.messageId], _, rfl, rfl, rfl⟩
  | donId => exact ⟨[.messageId, .method], _, rfl, rfl, rfl⟩
  | sender => exact ⟨[.messageId, .method, .donId], [], rfl, rfl, rfl⟩

private theorem exists_of_lt {i : Nat} (h : i < 298) : ∃ f : Field, f.start ≤ i ∧ i < f.stop := by
  by_cases hmessageId : i < 128
  · exact ⟨.messageId, Nat.zero_le i, hmessageId⟩
  by_cases hmethod : i < 192
  · exact ⟨.method, Nat.not_lt.1 hmessageId, hmethod⟩
  by_cases hdonId : i < 256
  · exact ⟨.donId, Nat.not_lt.1 hmethod, hdonId⟩
  · exact ⟨.sender, Nat.not_lt.1 hdonId, h⟩

variable {b} {f : Field}

private theorem length_padded (h : b.Fits) (f : Field) : (f.padded b).length = f.width := by
  have hfits := h.le f
  rw [padded, Bytes.padRight, List.length_append, List.length_replicate, Utf8.length_encode]
  omega

private theorem length_flatten_padded (h : b.Fits) (fs : List Field) :
    (fs.map (padded b)).flatten.length = (fs.map width).sum := by
  induction fs with
  | nil => rfl
  | cons f fs ih => rw [List.map_cons, List.flatten_cons, List.length_append, ih, length_padded h, List.map_cons, List.sum_cons]

end Field

/-- The bytes are a body as it is signed: 298 bytes and the payload, with every text at its start, and zeros from its end up to
its stop. -/
structure LaidOut (b : MessageBody) (bytes : Bytes) : Prop where
  length : bytes.length = 298 + b.payloadBytes.length
  text (f : Field) : (bytes.drop f.start).take (f.text b).utf8ByteSize = Utf8.encode (f.text b)
  zero (f : Field) (i : Nat) : f.start + (f.text b).utf8ByteSize ≤ i → i < f.stop → bytes[i]? = some 0
  payload : bytes.drop 298 = b.payloadBytes

variable {b : MessageBody} {bytes bytes' : Bytes}

private theorem Fits.signingBytes_eq (h : b.Fits) :
    b.signingBytes = .ok ((Field.inOrder.map (Field.padded b)).flatten ++ b.payloadBytes) := by
  rw [signingBytes_eq_first, fits_iff_find?.1 h]

private theorem drop_start (h : b.Fits) (f : Field) : ∃ rest,
    ((Field.inOrder.map (Field.padded b)).flatten ++ b.payloadBytes).drop f.start = f.padded b ++ rest := by
  obtain ⟨earlier, later, horder, hstart, -⟩ := f.exists_inOrder
  have hlength := Field.length_flatten_padded h earlier
  refine ⟨(later.map (Field.padded b)).flatten ++ b.payloadBytes, ?_⟩
  rw [horder, List.map_append, List.map_cons, List.flatten_append, List.flatten_cons, List.append_assoc, List.append_assoc]
  exact List.drop_left' (hlength.trans hstart)

private theorem laidOut_of_fits (h : b.Fits) : b.LaidOut ((Field.inOrder.map (Field.padded b)).flatten ++ b.payloadBytes) := by
  have hlength := Field.length_flatten_padded h Field.inOrder
  refine ⟨?_, fun f => ?_, fun f i hi hstop => ?_, List.drop_left' hlength⟩
  · rw [List.length_append, hlength]
    rfl
  · obtain ⟨rest, hrest⟩ := drop_start h f
    rw [hrest, Field.padded, Bytes.padRight, List.append_assoc]
    exact List.take_left' (Utf8.length_encode _)
  · obtain ⟨rest, hrest⟩ := drop_start h f
    obtain ⟨-, -, -, -, hwidth⟩ := f.exists_inOrder
    have hplace : f.start + (i - f.start) = i := by omega
    have hpadded := Field.length_padded h f
    -- Counted from the start of the text, the place is still in the filled text, but no longer in the text.
    rw [← hplace, ← List.getElem?_drop, hrest, List.getElem?_append_left (by omega), Field.padded, Bytes.padRight,
      List.getElem?_append_right (by rw [Utf8.length_encode]; omega), List.getElem?_replicate, if_pos]
    rw [Utf8.length_encode]
    omega

private theorem LaidOut.unique (h : b.LaidOut bytes) (h' : b.LaidOut bytes') : bytes = bytes' := by
  -- A place is in a text, or between the end of a text and its stop, or in the payload.
  refine List.ext_getElem? fun i => ?_
  by_cases hi : i < 298
  · obtain ⟨f, hstart, hstop⟩ := Field.exists_of_lt hi
    by_cases htext : i < f.start + (f.text b).utf8ByteSize
    · have hplace : f.start + (i - f.start) = i := by omega
      have hsame := congrArg (·[i - f.start]?) ((h.text f).trans (h'.text f).symm)
      rw [List.getElem?_take_of_lt (by omega), List.getElem?_take_of_lt (by omega), List.getElem?_drop, List.getElem?_drop,
        hplace] at hsame
      exact hsame
    · rw [h.zero f i (Nat.not_lt.1 htext) hstop, h'.zero f i (Nat.not_lt.1 htext) hstop]
  · have hplace : 298 + (i - 298) = i := by omega
    have hsame := congrArg (·[i - 298]?) (h.payload.trans h'.payload.symm)
    rw [List.getElem?_drop, List.getElem?_drop, hplace] at hsame
    exact hsame

private theorem signingBytes_eq_ok_iff : b.signingBytes = .ok bytes ↔ b.Fits ∧ b.LaidOut bytes := by
  by_cases hfits : b.Fits
  · rw [hfits.signingBytes_eq]
    constructor
    · rintro ⟨⟩
      exact ⟨hfits, laidOut_of_fits hfits⟩
    · rintro ⟨-, hlaid⟩
      exact congrArg Except.ok ((laidOut_of_fits hfits).unique hlaid)
  · obtain ⟨field, length, max, herror⟩ := signingBytes_of_not_fits hfits
    rw [herror]
    exact iff_of_false nofun fun h => hfits h.1

private theorem exists_signingBytes_iff : (∃ bytes, b.signingBytes = .ok bytes) ↔ b.Fits := by
  constructor
  · rintro ⟨bytes, hbytes⟩
    exact (signingBytes_eq_ok_iff.1 hbytes).1
  · intro hfits
    exact ⟨_, hfits.signingBytes_eq⟩

private theorem signingBytes_eq_error_iff {e : MessageError} : b.signingBytes = .error e ↔
    ∃ earlier f later, Field.inOrder = earlier ++ f :: later ∧ f.IsTooLong b ∧ (∀ g ∈ earlier, ¬ g.IsTooLong b) ∧
      e = f.refusal b := by
  rw [signingBytes_eq_first]
  cases hfirst : Field.inOrder.find? fun f => decide (f.IsTooLong b) with
  | none =>
    refine iff_of_false nofun ?_
    rintro ⟨earlier, f, later, horder, hlong, -⟩
    refine List.find?_eq_none.1 hfirst f ?_ (decide_eq_true hlong)
    rw [horder]
    exact List.mem_append_right _ List.mem_cons_self
  | some f =>
    obtain ⟨hlong, earlier, later, horder, hearlier⟩ := List.find?_eq_some_iff_append.1 hfirst
    constructor
    · rintro ⟨⟩
      exact ⟨earlier, f, later, horder, of_decide_eq_true hlong, by simpa using hearlier, rfl⟩
    · rintro ⟨earlier', f', later', horder', hlong', hearlier', rfl⟩
      have hfirst' : Field.inOrder.find? (fun f => decide (f.IsTooLong b)) = some f' :=
        List.find?_eq_some_iff_append.2 ⟨decide_eq_true hlong', earlier', later', horder', by simpa using hearlier'⟩
      rw [hfirst] at hfirst'
      cases hfirst'
      rfl

end MessageBody

/-! ### Signing in place -/

namespace Message

open MessageBody (Field LaidOut)

/-- Signs the message that is held in a place, with any signer of messages in parts. -/
def signHeld (signer : List Bytes → Except SignatureError Bytes) : EStateM MessageError Message Unit := do
  let m ← get
  let data ← MonadExcept.ofExcept m.body.signingBytes
  let signature ← MonadExcept.ofExcept ((signer [data]).mapError MessageError.signature)
  set { m with signature := Hex.marked signature }

variable {m m' : Message} {signer : List Bytes → Except SignatureError Bytes} {data : Bytes}

private theorem run_ofExcept {ε σ α : Type} (x : Except ε α) (s : σ) : (MonadExcept.ofExcept x : EStateM ε σ α).run s =
    match x with
    | .ok a => .ok a s
    | .error e => .error e s := by
  cases x <;> rfl

private theorem run_signHeld_of_refused {e : MessageError} (hdata : m.body.signingBytes = .error e) :
    (signHeld signer).run m = .error e m := by
  simp only [signHeld, EStateM.run_bind, EStateM.run_get, hdata, run_ofExcept]

private theorem run_signHeld_of_failed {e : SignatureError} (hdata : m.body.signingBytes = .ok data)
    (hsigner : signer [data] = .error e) : (signHeld signer).run m = .error (.signature e) m := by
  simp only [signHeld, EStateM.run_bind, EStateM.run_get, hdata, run_ofExcept, hsigner, Except.mapError]

private theorem run_signHeld_of_signed {signature : Bytes} (hdata : m.body.signingBytes = .ok data)
    (hsigner : signer [data] = .ok signature) :
    (signHeld signer).run m = .ok () { m with signature := Hex.marked signature } := by
  simp only [signHeld, EStateM.run_bind, EStateM.run_get, hdata, run_ofExcept, hsigner, Except.mapError]
  rfl

/-- The body is refused, or the signer fails, or the message is signed. -/
private theorem signHeld_cases (m : Message) (signer : List Bytes → Except SignatureError Bytes) :
    (∃ e, m.body.signingBytes = .error e ∧ (signHeld signer).run m = .error e m) ∨
    (∃ data e, m.body.signingBytes = .ok data ∧ signer [data] = .error e ∧ (signHeld signer).run m = .error (.signature e) m) ∨
    ∃ data signature, m.body.signingBytes = .ok data ∧ signer [data] = .ok signature ∧
      (signHeld signer).run m = .ok () { m with signature := Hex.marked signature } := by
  cases hdata : m.body.signingBytes with
  | error e => exact .inl ⟨e, rfl, run_signHeld_of_refused hdata⟩
  | ok data =>
    cases hsigner : signer [data] with
    | error e => exact .inr (.inl ⟨data, e, rfl, hsigner, run_signHeld_of_failed hdata hsigner⟩)
    | ok signature => exact .inr (.inr ⟨data, signature, rfl, hsigner, run_signHeld_of_signed hdata hsigner⟩)

/-- Signing fails for the body or in the signer, and then the message is as it was. -/
private theorem signHeld_eq_error_iff {e : MessageError} : (signHeld signer).run m = .error e m' ↔
    (m.body.signingBytes = .error e ∨
      ∃ data e', m.body.signingBytes = .ok data ∧ signer [data] = .error e' ∧ e = .signature e') ∧ m' = m := by
  constructor
  · intro h
    rcases signHeld_cases m signer with ⟨e', hdata, hrun⟩ | ⟨data, e', hdata, hsigner, hrun⟩ | ⟨data, signature, -, -, hrun⟩
    · rw [hrun] at h
      cases h
      exact ⟨.inl hdata, rfl⟩
    · rw [hrun] at h
      cases h
      exact ⟨.inr ⟨data, e', hdata, hsigner, rfl⟩, rfl⟩
    · rw [hrun] at h
      cases h
  · rintro ⟨hdata | ⟨data, e', hdata, hsigner, rfl⟩, rfl⟩
    · exact run_signHeld_of_refused hdata
    · exact run_signHeld_of_failed hdata hsigner

/-- Signing succeeds if the body is not refused and the signer succeeds, and then only the signature is new. -/
private theorem signHeld_eq_ok_iff : (signHeld signer).run m = .ok () m' ↔
    ∃ data signature, m.body.signingBytes = .ok data ∧ signer [data] = .ok signature ∧
      m' = { m with signature := Hex.marked signature } := by
  constructor
  · intro h
    rcases signHeld_cases m signer with ⟨e, -, hrun⟩ | ⟨data, e, -, -, hrun⟩ | ⟨data, signature, hdata, hsigner, hrun⟩
    · rw [hrun] at h
      cases h
    · rw [hrun] at h
      cases h
    · rw [hrun] at h
      cases h
      exact ⟨data, signature, hdata, hsigner, rfl⟩
  · rintro ⟨data, signature, hdata, hsigner, rfl⟩
    exact run_signHeld_of_signed hdata hsigner

/-- With a key, the message that is signed is the one in the place afterwards. -/
private theorem sign_eq_signHeld (m : Message) (key : SigningKey) : m.sign key =
    match (signHeld key.signParts).run m with
    | .ok _ m' => .ok m'
    | .error e _ => .error e := by
  have hparts : ∀ data, key.signParts [data] = key.sign data := by
    intro data
    rw [SigningKey.signParts_eq, List.flatten_singleton]
  rcases signHeld_cases m key.signParts with ⟨e, hdata, hrun⟩ | ⟨data, e, hdata, hsigner, hrun⟩ |
    ⟨data, signature, hdata, hsigner, hrun⟩
  · rw [hrun, sign_of_error hdata]
  · rw [hparts] at hsigner
    rw [hrun, sign_of_signature_error hdata hsigner]
  · rw [hparts] at hsigner
    rw [hrun, sign_of_ok hdata hsigner]

/-- A body can be signed exactly when its texts have at most 128, 64, 64 and 42 bytes; otherwise it is refused for the first that
has more. What is signed has its texts at their offsets and the payload behind them. Signing in place fails exactly for such a
refusal, or in the signer, and then leaves the message as it is; otherwise only the signature is new. -/
theorem signing_laid_out (m : Message) (signer : List Bytes → Except SignatureError Bytes) :
    ((∃ data, m.body.signingBytes = .ok data) ↔ m.body.messageId.utf8ByteSize ≤ 128 ∧ m.body.method.utf8ByteSize ≤ 64 ∧
      m.body.donId.utf8ByteSize ≤ 64 ∧ m.body.sender.utf8ByteSize ≤ 42) ∧
    (∀ e, m.body.signingBytes = .error e ↔ ∃ earlier f later, Field.inOrder = earlier ++ f :: later ∧
      f.width < (f.text m.body).utf8ByteSize ∧ (∀ g ∈ earlier, (g.text m.body).utf8ByteSize ≤ g.width) ∧
      e = .fieldTooLong f.name (f.text m.body).utf8ByteSize f.width) ∧
    (∀ data, m.body.signingBytes = .ok data → m.body.LaidOut data) ∧
    (∀ e m', (signHeld signer).run m = .error e m' ↔ (m.body.signingBytes = .error e ∨
      ∃ data e', m.body.signingBytes = .ok data ∧ signer [data] = .error e' ∧ e = .signature e') ∧ m' = m) ∧
    (∀ m', (signHeld signer).run m = .ok () m' ↔ ∃ data signature, m.body.signingBytes = .ok data ∧
      signer [data] = .ok signature ∧ m' = { m with signature := Hex.marked signature }) ∧
    ∀ key : SigningKey, m.sign key =
      match (signHeld key.signParts).run m with
      | .ok _ m' => .ok m'
      | .error e _ => .error e := by
  refine ⟨?_, fun e => ?_, fun data hdata => (MessageBody.signingBytes_eq_ok_iff.1 hdata).2,
    fun e m' => signHeld_eq_error_iff, fun m' => signHeld_eq_ok_iff, sign_eq_signHeld m⟩
  · rw [MessageBody.exists_signingBytes_iff]
    constructor
    · rintro ⟨hid, hmethod, hdon, hsender⟩
      exact ⟨hid, hmethod, hdon, hsender⟩
    · rintro ⟨hid, hmethod, hdon, hsender⟩
      exact ⟨hid, hmethod, hdon, hsender⟩
  · rw [MessageBody.signingBytes_eq_error_iff]
    simp only [Field.IsTooLong, Nat.not_lt]
    rfl

namespace Filled

/-- Sixty-four characters of two bytes. -/
def message : Message := ⟨"", ⟨String.ofList (List.replicate 64 'é'), "m", "", "", some [123, 125]⟩⟩

private theorem encode_messageId : Utf8.encode message.body.messageId = (List.replicate 64 [195, 169]).flatten := by
  rw [show message.body.messageId = String.ofList (List.replicate 64 'é') from rfl, Utf8.encode_ofList]
  rfl

theorem signed_laid_out : ∃ data, message.body.signingBytes = .ok data ∧ data.length = 300 ∧
    data.take 128 = (List.replicate 64 [195, 169]).flatten ∧ (data.drop 128).take 1 = [109] ∧ data[129]? = some 0 ∧
    (signHeld fun _ => .ok [7]).run message = .ok () { message with signature := "0x07" } := by
  obtain ⟨hfits, -, hlaid, -, hsign, -⟩ := signing_laid_out message fun _ => .ok [7]
  have hid : message.body.messageId.utf8ByteSize = 128 := by
    rw [← Utf8.length_encode, encode_messageId]
    rfl
  obtain ⟨data, hdata⟩ := hfits.2 ⟨hid.le, by decide, by decide, by decide⟩
  have hlayout := hlaid data hdata
  refine ⟨data, hdata, hlayout.length, ?_, hlayout.text .method, hlayout.zero .method 129 (by decide) (by decide),
    (hsign _).2 ⟨data, [7], hdata, rfl, ?_⟩⟩
  · have htext := hlayout.text .messageId
    rw [Field.text, hid, encode_messageId] at htext
    exact htext
  · rfl

end Filled

end Message

end SecretsGateway
