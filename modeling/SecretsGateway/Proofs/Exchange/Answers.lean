import SecretsGateway.Proofs.Exchange.Calls
import SecretsGateway.Proofs.Message.Signed
import SecretsGateway.Proofs.Message.Wire
import SecretsGateway.Proofs.Response

/-!
# What is sent

An exchange sends nothing but the answer that follows from what it has been told (`Delivery.Answered`). The answer repeats the
ids and the method of the message that it answers, names the account of the node as its sender, is signed by the node, and
all of this can be read off its bytes (`Node.answered_of_sending`).
-/

namespace SecretsGateway

variable {σ : Type}

namespace Response

/-- The text of a failure. -/
def error? : Response → Option String
  | list r => r.error
  | set r => r.error

/-- The rows of a list. -/
def rows : Response → List SecretRow
  | list r => r.rows
  | set _ => []

/-- There is a text exactly if the request failed. It is not empty then, and there are no rows. -/
structure Coherent (r : Response) : Prop where
  isSuccess_iff : r.isSuccess = true ↔ r.error? = none
  failure : r.isSuccess = false → r.rows = [] ∧ ∃ e, r.error? = some e ∧ e ≠ ""

private theorem Coherent.of_success {r : Response} (hsuccess : r.isSuccess = true) (herror : r.error? = none) : r.Coherent := by
  constructor
  · rw [hsuccess, herror]
    simp
  · intro hfailure
    rw [hsuccess] at hfailure
    cases hfailure

private theorem Coherent.of_failure {r : Response} {e : String} (hfailure : r.isSuccess = false) (herror : r.error? = some e)
    (hrows : r.rows = []) (he : e ≠ "") : r.Coherent := by
  constructor
  · rw [hfailure, herror]
    simp
  · intro _
    exact ⟨hrows, e, herror, he⟩

/-- The answer that a payload is to the clients of a method. -/
def read (method : String) (payload : Bytes) : Except Json.Error Response :=
  if method = Method.list.name then (ListResponse.decode payload).map list else (SetResponse.decode payload).map set

end Response

/-- The answer to a message, by what its exchange has been told. -/
inductive Delivery.Answered (d : Delivery) (t : List (Told σ)) : Response → Prop
  | listed {a : Address} {rows : List SecretRow} {s : σ} : d.message.body.method = "secrets_list" →
      ⟨.list a, .ok rows, s⟩ ∈ t → Answered d t (.list ⟨true, none, rows⟩)
  | unlisted {a : Address} {e : StorageError} {s : σ} : d.message.body.method = "secrets_list" →
      ⟨.list a, .error e, s⟩ ∈ t → Answered d t (.list ⟨false, some ("Failed to list secrets: " ++ e.message), []⟩)
  | kept {w : SecretWrite} {s : σ} : d.message.body.method = "secrets_set" →
      ⟨.put w, .ok (), s⟩ ∈ t → Answered d t (.set ⟨true, none⟩)
  | unkept {w : SecretWrite} {e : StorageError} {s : σ} : d.message.body.method = "secrets_set" →
      ⟨.put w, .error e, s⟩ ∈ t → Answered d t (.set ⟨false, some ("Failed to set secret: " ++ e.message)⟩)
  | refused {e : RequestError} : d.message.body.method = "secrets_set" →
      Method.set.decode d.message.body.payloadBytes = .error e →
      Answered d t (.set ⟨false, some ("Bad request to set secret: " ++ e.message)⟩)

variable {n : Node} {parts : Collaborators σ} {d : Delivery} {t : List (Told σ)} {r : Response}

/-- What is settled is an answer. -/
theorem Settled.answered {s' : σ} (h : Settled d t r s') {u : List (Told σ)} (hpre : t <+: u) : d.Answered u r := by
  cases h with
  | @refused _ method _ _ _ hname hp =>
    cases method with
    | list => cases hp
    | set => exact .refused (Method.eq_name_of_ofName? hname) hp
  | @listed a rows s _ _ hname =>
    have hmethod := Method.eq_name_of_ofName? hname
    have hmem : ⟨.list a, rows, s'⟩ ∈ u := hpre.subset (by simp)
    cases rows with
    | ok rows => exact .listed hmethod hmem
    | error e => exact .unlisted hmethod hmem
  | @written a request result s _ _ hname _ =>
    have hmethod := Method.eq_name_of_ofName? hname
    have hmem : ⟨.put (request.toWrite a), result, s'⟩ ∈ u := hpre.subset (by simp)
    cases result with
    | ok _ => exact .kept hmethod hmem
    | error e => exact .unkept hmethod hmem

namespace Delivery.Answered

private theorem append_ne_empty {start text : String} (h : start ≠ "") : start ++ text ≠ "" := by
  intro heq
  exact h (String.append_eq_empty_iff.1 heq).1

private theorem coherent (h : d.Answered t r) : r.Coherent := by
  cases h with
  | listed => exact .of_success rfl rfl
  | kept => exact .of_success rfl rfl
  | unlisted => exact .of_failure rfl rfl rfl (append_ne_empty (by decide))
  | unkept => exact .of_failure rfl rfl rfl (append_ne_empty (by decide))
  | refused => exact .of_failure rfl rfl rfl (append_ne_empty (by decide))

/-- Whoever knows the method of an answer reads the answer off its payload. -/
theorem read_write (h : d.Answered t r) : Response.read d.message.body.method r.toJson.write = .ok r := by
  have hlist : ∀ l : ListResponse, d.message.body.method = "secrets_list" →
      Response.read d.message.body.method l.toJson.write = .ok (.list l) := by
    intro l hmethod
    have hname : d.message.body.method = Method.list.name := hmethod
    rw [Response.read, if_pos hname, ListResponse.decode_write]
    rfl
  have hset : ∀ l : SetResponse, d.message.body.method = "secrets_set" →
      Response.read d.message.body.method l.toJson.write = .ok (.set l) := by
    intro l hmethod
    have hne : d.message.body.method ≠ Method.list.name := by
      rw [hmethod]
      decide
    rw [Response.read, if_neg hne, SetResponse.decode_write]
    rfl
  cases h with
  | listed hmethod => exact hlist _ hmethod
  | unlisted hmethod => exact hlist _ hmethod
  | kept hmethod => exact hset _ hmethod
  | unkept hmethod => exact hset _ hmethod
  | refused hmethod => exact hset _ hmethod

end Delivery.Answered

namespace Node

section Reply

variable {request : MessageBody} {m : Message}

private theorem exists_of_reply (h : n.reply request r = .ok m) :
    ∃ b : MessageBody, b = { request with sender := n.address.toHex }.withPayload r.toJson ∧ m.body = b ∧
      Message.sign ⟨"", b⟩ n.key = .ok m := by
  obtain ⟨data, signature, -, -, hm⟩ := Message.exists_of_sign h
  refine ⟨_, rfl, ?_, h⟩
  rw [hm]

/-- An answer repeats the ids and the method, names the node, and carries the response. -/
theorem fields_of_reply (h : n.reply request r = .ok m) :
    (m.body.messageId = request.messageId ∧ m.body.donId = request.donId ∧ m.body.method = request.method) ∧
      m.body.sender = n.address.toHex ∧ m.body.payload = some r.toJson.write := by
  obtain ⟨b, hb, hbody, -⟩ := exists_of_reply h
  rw [hbody, hb]
  simp only [MessageBody.messageId_withPayload, MessageBody.donId_withPayload, MessageBody.method_withPayload,
    MessageBody.sender_withPayload, MessageBody.payload_withPayload, and_self]

private theorem decode_encode_of_reply (h : n.reply request r = .ok m) : Message.decode m.encode = .ok m := by
  obtain ⟨-, -, hpayload⟩ := fields_of_reply h
  obtain ⟨ms, hms, hsound⟩ := r.exists_toJson_eq_object
  have hraw : ∀ p ∈ m.body.payload, Json.IsRaw p := by
    intro p hp
    rw [hpayload, hms] at hp
    exact Option.some.inj hp ▸ Json.isRaw_write hsound
  -- an object is not `null`
  have hkept : m.body.payload ≠ some Json.nullText := by
    rw [hpayload, hms]
    intro heq
    cases heq
  rw [Message.decode_encode hraw, MessageBody.delivered_of_ne hkept]

private theorem validate_of_reply (h : n.reply request r = .ok m) (hmethod : request.method ≠ "")
    (hkey : ∀ data, m.body.signingBytes = .ok data → n.key.Recovers data) : m.validate = .ok n.address := by
  obtain ⟨⟨-, -, hname⟩, hsender, -⟩ := fields_of_reply h
  obtain ⟨b, -, rfl, hsign⟩ := exists_of_reply h
  refine Message.validate_of_sign hsign ?_ hsender hkey
  rw [hname]
  exact hmethod

end Reply

/-- Everything that an exchange sends, whatever its parts answer and whatever happens around it. It goes to the gateway that
the message came from and repeats the ids and the method of the message. Its sender is the account of the node in its written
form, and whoever judges it finds that this account has signed it, provided that the curve gives back the signer of these
very bytes; so does whoever gets it over the wire, for it is read back from its bytes. Its payload is read back as the answer
that follows from what the parts have answered. -/
theorem answered_of_sending (n : Node) (parts : Collaborators σ) (d : Delivery) (state : σ) (moves : List (Move σ))
    (look : Look σ) (hlook : look ∈ (n.course parts d state moves).looks) (out : Delivery) (hcall : look.call = .send out)
    (hkey : ∀ data, out.message.body.signingBytes = .ok data → n.key.Recovers data) :
    let request := d.message.body
    let answer := out.message.body
    out.gateway = d.gateway ∧
    (answer.messageId = request.messageId ∧ answer.donId = request.donId ∧ answer.method = request.method) ∧
    answer.sender = n.address.toHex ∧
    out.message.validate = .ok n.address ∧
    (∃ m, Message.decode out.message.encode = .ok m ∧ m.body = answer ∧ m.validate = .ok n.address) ∧
    ∃ r, d.Answered (n.course parts d state moves).told r ∧ r.Coherent ∧
      Response.read answer.method answer.payloadBytes = .ok r := by
  -- a sending stands in a story only behind the response that is sent
  obtain ⟨t, hpre, hstory⟩ := (n.reached_course parts d state moves).story_of_mem_looks hlook
  rw [hcall] at hstory
  cases hstory with
  | @sending _ r s m hsettled hout =>
    obtain ⟨hreply, -, -⟩ := reply_of_outgoing hout
    obtain ⟨hids, hsender, hpayload⟩ := fields_of_reply hreply
    have hmethod : d.message.body.method ≠ "" := by
      rcases hsettled.method_eq with hname | hname <;> rw [hname] <;> decide
    have hvalid := validate_of_reply hreply hmethod hkey
    have hanswered := hsettled.answered hpre
    refine ⟨rfl, hids, hsender, hvalid, ⟨m, decode_encode_of_reply hreply, rfl, hvalid⟩, r, hanswered, hanswered.coherent, ?_⟩
    have hbytes : m.body.payloadBytes = r.toJson.write := by
      rw [MessageBody.payloadBytes, hpayload, Option.getD_some]
    dsimp only
    rw [hids.2.2, hbytes]
    exact hanswered.read_write

/-- The curve gives the node back for the signature of its answer. -/
private theorem recovers_sample {data : Bytes} (hdata : Sample.answer.body.signingBytes = .ok data) :
    Sample.node.key.Recovers data := by
  obtain ⟨data', hdata', -, -, hkey⟩ := Sample.signed_answer
  rw [hdata'] at hdata
  cases hdata
  exact hkey

theorem answered_of_sample :
    let c := Sample.node.course (World.collaborators ⟨0, none⟩) Sample.request Sample.world [.wake]
    (∃ look ∈ c.looks, look.call = .send ⟨"gateway", Sample.answer⟩) ∧
      Sample.answer.body.sender = Sample.node.address.toHex ∧ Sample.answer.validate = .ok Sample.node.address ∧
      (∃ m, Message.decode Sample.answer.encode = .ok m ∧ m.body = Sample.answer.body ∧
        m.validate = .ok Sample.node.address) ∧
      ∃ r, Sample.request.Answered c.told r ∧ r.Coherent ∧
        Response.read Sample.answer.body.method Sample.answer.body.payloadBytes = .ok r := by
  intro c
  have hcalls : Call.send ⟨"gateway", Sample.answer⟩ ∈ c.looks.map Look.call := by
    rw [(Sample.course_request Sample.node Sample.reply_request).1]
    exact List.mem_cons_of_mem _ (List.mem_singleton_self _)
  obtain ⟨look, hlook, hcall⟩ := List.mem_map.1 hcalls
  obtain ⟨-, -, hsender, hvalid, hwire, hanswered⟩ := answered_of_sending Sample.node (World.collaborators ⟨0, none⟩)
    Sample.request Sample.world [.wake] look hlook ⟨"gateway", Sample.answer⟩ hcall (fun _ hdata => recovers_sample hdata)
  exact ⟨⟨look, hlook, hcall⟩, hsender, hvalid, hwire, hanswered⟩

end Node

end SecretsGateway
