import SecretsGateway.Message
import SecretsGateway.Proofs.Text.Utf8

/-!
# The layout of signed messages

A body can be signed exactly when its four texts fit their widths (`MessageBody.Fits`), and then it is signed as their
bytes, filled up, in front of the payload. The sender of an answer is the account of the node, which always fits.
-/

namespace SecretsGateway

theorem ok_bind {ε α β : Type} (a : α) (f : α → Except ε β) : (Except.ok a >>= f) = f a := rfl

private theorem error_bind {ε α β : Type} (e : ε) (f : α → Except ε β) : (Except.error e >>= f) = .error e := rfl

/-- What comes first has succeeded, if the whole has. -/
theorem exists_of_bind_eq_ok {ε α β : Type} {x : Except ε α} {f : α → Except ε β} {b : β} (h : (x >>= f) = .ok b) :
    ∃ a, x = .ok a ∧ f a = .ok b := by
  cases x with
  | error e => cases h
  | ok a => exact ⟨a, rfl, h⟩

/-- Of two places in a list one is before the other, if they are not the same. -/
theorem eq_or_before {α : Type} {a b : α} {earlier later earlier' later' : List α}
    (h : earlier ++ a :: later = earlier' ++ b :: later') : a = b ∨ a ∈ earlier' ∨ b ∈ earlier := by
  rcases List.append_eq_append_iff.1 h with ⟨between, rfl, hafter⟩ | ⟨between, rfl, hafter⟩
  · rcases List.cons_eq_append_iff.1 hafter with ⟨rfl, hcons⟩ | ⟨rest, rfl, -⟩
    · exact .inl (List.cons.inj hcons).1.symm
    · exact .inr (.inl (List.mem_append_right _ List.mem_cons_self))
  · rcases List.cons_eq_append_iff.1 hafter with ⟨rfl, hcons⟩ | ⟨rest, rfl, -⟩
    · exact .inl (List.cons.inj hcons).1
    · exact .inr (.inr (List.mem_append_right _ List.mem_cons_self))

theorem Address.utf8ByteSize_toHex (a : Address) : a.toHex.utf8ByteSize = MessageBody.senderWidth := by
  rw [Address.toHex, Hex.utf8ByteSize_marked, a.length_bytes]
  rfl

namespace MessageBody

section Payload

variable (b : MessageBody) (v : Json.Value)

@[simp] theorem messageId_withPayload : (b.withPayload v).messageId = b.messageId := rfl

@[simp] theorem method_withPayload : (b.withPayload v).method = b.method := rfl

@[simp] theorem donId_withPayload : (b.withPayload v).donId = b.donId := rfl

@[simp] theorem sender_withPayload : (b.withPayload v).sender = b.sender := rfl

@[simp] theorem payload_withPayload : (b.withPayload v).payload = some v.write := rfl

end Payload

/-- Every text of a body fits its width. -/
structure Fits (b : MessageBody) : Prop where
  messageId : b.messageId.utf8ByteSize ≤ messageIdWidth
  method : b.method.utf8ByteSize ≤ methodWidth
  donId : b.donId.utf8ByteSize ≤ donIdWidth
  sender : b.sender.utf8ByteSize ≤ senderWidth

variable {field value : String} {width : Nat}

private theorem aligned_of_le (h : value.utf8ByteSize ≤ width) :
    aligned field value width = .ok ((Utf8.encode value).padRight width) := by
  rw [← Utf8.length_encode] at h
  simp only [aligned, Nat.not_lt.2 h, ↓reduceIte]

private theorem aligned_of_lt (h : width < value.utf8ByteSize) :
    aligned field value width = .error (.fieldTooLong field value.utf8ByteSize width) := by
  rw [← Utf8.length_encode] at h ⊢
  simp only [aligned, h, ↓reduceIte]

theorem Fits.signingBytes {b : MessageBody} (h : b.Fits) :
    b.signingBytes = .ok ((Utf8.encode b.messageId).padRight messageIdWidth ++
      (Utf8.encode b.method).padRight methodWidth ++ (Utf8.encode b.donId).padRight donIdWidth ++
      (Utf8.encode b.sender).padRight senderWidth ++ b.payloadBytes) := by
  simp only [MessageBody.signingBytes, aligned_of_le h.messageId, aligned_of_le h.method, aligned_of_le h.donId,
    aligned_of_le h.sender]
  rfl

end MessageBody

namespace MessageBody

/-- The texts of a body. -/
inductive Field where
  | messageId
  | method
  | donId
  | sender
  deriving DecidableEq

namespace Field

/-- The texts as they follow each other in what is signed. -/
def inOrder : List Field := [messageId, method, donId, sender]

def name : Field → String
  | messageId => "message_id"
  | method => "method"
  | donId => "don_id"
  | sender => "sender"

def width : Field → Nat
  | messageId => messageIdWidth
  | method => methodWidth
  | donId => donIdWidth
  | sender => senderWidth

variable (b : MessageBody)

def text : Field → String
  | messageId => b.messageId
  | method => b.method
  | donId => b.donId
  | sender => b.sender

/-- The text has more bytes than its width. -/
def IsTooLong (f : Field) : Prop := f.width < (f.text b).utf8ByteSize

instance : DecidablePred (IsTooLong b) := fun f => inferInstanceAs (Decidable (f.width < _))

/-- What is said of a text that is too long. -/
def refusal (f : Field) : MessageError := .fieldTooLong f.name (f.text b).utf8ByteSize f.width

/-- The bytes of a text, filled up. -/
def padded (f : Field) : Bytes := (Utf8.encode (f.text b)).padRight f.width

/-- Texts that are filled up one after the other are refused for the first one that is too long. -/
private theorem mapM_aligned (fs : List Field) : fs.mapM (fun f => aligned f.name (f.text b) f.width) =
    match fs.find? (fun f => decide (f.IsTooLong b)) with
    | some f => .error (f.refusal b)
    | none => .ok (fs.map (padded b)) := by
  induction fs with
  | nil => rfl
  | cons f fs ih =>
    rw [List.mapM_cons, ih]
    by_cases hlong : f.IsTooLong b
    · rw [aligned_of_lt hlong, error_bind, List.find?_cons, decide_eq_true hlong]
      rfl
    · rw [aligned_of_le (Nat.not_lt.1 hlong), ok_bind, List.find?_cons, decide_eq_false hlong]
      cases fs.find? fun f => decide (f.IsTooLong b) <;> rfl

end Field

variable (b : MessageBody)

private theorem signingBytes_eq_mapM : b.signingBytes =
    (Field.inOrder.mapM fun f => aligned f.name (f.text b) f.width).map fun parts => parts.flatten ++ b.payloadBytes := by
  simp only [signingBytes, Field.inOrder, List.mapM_cons, List.mapM_nil, Field.name, Field.text, Field.width]
  generalize aligned "message_id" b.messageId messageIdWidth = messageId
  generalize aligned "method" b.method methodWidth = method
  generalize aligned "don_id" b.donId donIdWidth = donId
  generalize aligned "sender" b.sender senderWidth = sender
  cases messageId with
  | error e => rfl
  | ok messageId =>
    cases method with
    | error e => rfl
    | ok method =>
      cases donId with
      | error e => rfl
      | ok donId =>
        cases sender with
        | error e => rfl
        | ok sender =>
          refine congrArg Except.ok ?_
          simp

/-- What is signed are the texts, filled up, in front of the payload; a body is refused for the first text that is too long. -/
theorem signingBytes_eq_first : b.signingBytes =
    match Field.inOrder.find? (fun f => decide (f.IsTooLong b)) with
    | some f => .error (f.refusal b)
    | none => .ok ((Field.inOrder.map (Field.padded b)).flatten ++ b.payloadBytes) := by
  rw [signingBytes_eq_mapM, Field.mapM_aligned]
  cases Field.inOrder.find? fun f => decide (f.IsTooLong b) <;> rfl

variable {b}

theorem Fits.le (h : b.Fits) (f : Field) : (f.text b).utf8ByteSize ≤ f.width := by
  cases f with
  | messageId => exact h.messageId
  | method => exact h.method
  | donId => exact h.donId
  | sender => exact h.sender

theorem fits_iff_find? : b.Fits ↔ Field.inOrder.find? (fun f => decide (f.IsTooLong b)) = none := by
  simp only [List.find?_eq_none, decide_eq_true_eq]
  constructor
  · intro h f _
    exact Nat.not_lt.2 (h.le f)
  · intro h
    have hshort : ∀ f ∈ Field.inOrder, (f.text b).utf8ByteSize ≤ f.width := fun f hf => Nat.not_lt.1 (h f hf)
    exact ⟨hshort .messageId (by decide), hshort .method (by decide), hshort .donId (by decide), hshort .sender (by decide)⟩

/-- A body that does not fit is refused for the length of one of its texts. -/
theorem signingBytes_of_not_fits (h : ¬ b.Fits) :
    ∃ field length max, b.signingBytes = .error (.fieldTooLong field length max) := by
  rw [signingBytes_eq_first]
  cases hfirst : Field.inOrder.find? fun f => decide (f.IsTooLong b) with
  | none => exact absurd (fits_iff_find?.2 hfirst) h
  | some f => exact ⟨_, _, _, rfl⟩

end MessageBody

namespace Message

variable {m m' : Message} {key : SigningKey} {data : Bytes}

theorem sign_of_ok {signature : Bytes} (hdata : m.body.signingBytes = .ok data) (h : key.sign data = .ok signature) :
    m.sign key = .ok { m with signature := Hex.marked signature } := by
  unfold sign
  rw [hdata, ok_bind, h]
  rfl

theorem sign_of_signature_error {e : SignatureError} (hdata : m.body.signingBytes = .ok data)
    (h : key.sign data = .error e) : m.sign key = .error (.signature e) := by
  unfold sign
  rw [hdata, ok_bind, h]
  rfl

theorem sign_of_error {e : MessageError} (h : m.body.signingBytes = .error e) : m.sign key = .error e := by
  unfold sign
  rw [h, error_bind]

/-- A signed message keeps its body, and its signature is that of the signing bytes. -/
theorem exists_of_sign (h : m.sign key = .ok m') :
    ∃ data signature, m.body.signingBytes = .ok data ∧ key.sign data = .ok signature ∧
      m' = { m with signature := Hex.marked signature } := by
  cases hdata : m.body.signingBytes with
  | error e => simp [sign_of_error hdata] at h
  | ok data =>
    cases hsig : key.sign data with
    | error e => simp [sign_of_signature_error hdata hsig] at h
    | ok signature =>
      rw [sign_of_ok hdata hsig] at h
      exact ⟨data, signature, rfl, hsig, (Except.ok.inj h).symm⟩

end Message

end SecretsGateway
