import SecretsGateway.Proofs.Exchange.Story
import SecretsGateway.Proofs.Message.Signed
import SecretsGateway.Proofs.Store.History
import SecretsGateway.World

/-!
# The calls of an exchange

Which calls an exchange makes when its scope is never cancelled. It asks the allowlist once if the sender can be read. It sends
once if the answer can be made (`Delivery.Answerable`) and never otherwise, and it goes to the storage once if the message asks
for it (`Delivery.Asks`) and never otherwise (`Node.calls_of_course`). All this is read off the story of the exchange, case by
case.
-/

namespace SecretsGateway

variable {σ : Type}

/-- What a call sends. -/
def Call.sent? : Call → Option Delivery
  | send out => some out
  | _ => none

/-- The call goes to the storage. -/
def Call.isStoring : Call → Bool
  | list _ | put _ => true
  | _ => false

/-- The call goes to the allowlist. -/
def Call.isAdmission : Call → Bool
  | allow _ => true
  | _ => false

namespace Course

/-- What an exchange has begun to ask the allowlist, in order. -/
def admissions (c : Course σ) : List Call := c.begun.filter Call.isAdmission

/-- All that an exchange has begun to send, in order. -/
def sendings (c : Course σ) : List Delivery := c.begun.filterMap Call.sent?

/-- The calls to the storage that an exchange has begun, in order. -/
def storings (c : Course σ) : List Call := c.begun.filter Call.isStoring

end Course

/-- The parts around a node as they were right after the last answer that was not the transport's. -/
def Told.settledIn? (t : List (Told σ)) : Option σ := (t.filter fun u => u.call.sent?.isNone).getLast?.map Told.after

namespace Delivery

variable (d : Delivery)

/-- The sender is `a`, and the allowlist has admitted it. -/
def Admitted (t : List (Told σ)) (a : Address) : Prop :=
  Address.parse d.message.body.sender = .ok a ∧ ∃ s, ⟨.allow a, true, s⟩ ∈ t

/-- There is an answer that can be made and sent: there was a connection when the answer was known. -/
structure Answerable (parts : Collaborators σ) (t : List (Told σ)) : Prop where
  admitted : ∃ a, d.Admitted t a
  method : d.message.body.method = Method.list.name ∨ d.message.body.method = Method.set.name
  messageId : d.message.body.messageId.utf8ByteSize ≤ 128
  donId : d.message.body.donId.utf8ByteSize ≤ 64
  attached : ∃ s, Told.settledIn? t = some s ∧ (parts.view s).attached = true

/-- What an admitted message asks of the storage, on behalf of its sender. -/
inductive Asks (t : List (Told σ)) : Call → Prop
  | list {a : Address} : d.Admitted t a → d.message.body.method = Method.list.name → Asks t (.list a)
  | put {a : Address} {r : SetRequest} : d.Admitted t a → d.message.body.method = Method.set.name →
      Method.set.decode d.message.body.payloadBytes = .ok (.set r) → Asks t (.put (r.toWrite a))

end Delivery

theorem Method.eq_name_of_ofName? {s : String} {method : Method} (h : Method.ofName? s = some method) :
    s = method.name := by
  unfold ofName? at h
  split at h
  · cases h
    assumption
  · split at h
    · cases h
      assumption
    · cases h

namespace Node

variable {n : Node} {request : MessageBody} {r : Response} {v : View}

private theorem outgoing_of_reply_error {e : MessageError} (hv : v.cancelled = false) (h : n.reply request r = .error e) :
    n.outgoing request r v = .error (.message e) := by
  unfold outgoing
  rw [hv, h]
  rfl

theorem outgoing_of_reply {m : Message} (hv : v.cancelled = false) (h : n.reply request r = .ok m) :
    n.outgoing request r v = if v.attached then .ok m else .error (.transport .notSet) := by
  unfold outgoing
  rw [hv, h]
  cases v.attached <;> rfl

/-- What is sent is the signed answer. -/
theorem reply_of_outgoing {m : Message} (h : n.outgoing request r v = .ok m) :
    n.reply request r = .ok m ∧ v.cancelled = false ∧ v.attached = true := by
  cases hc : v.cancelled with
  | true =>
    unfold outgoing at h
    rw [hc] at h
    cases h
  | false =>
    cases hreply : n.reply request r with
    | error e => simp [outgoing_of_reply_error hc hreply] at h
    | ok m' =>
      rw [outgoing_of_reply hc hreply] at h
      cases ha : v.attached with
      | false => simp [ha] at h
      | true => simpa [ha] using h

/-- An answer fits if the ids and the method that it repeats fit. -/
private theorem fits_reply {a : Address} {payload : Json.Value}
    (hmethod : request.method.utf8ByteSize ≤ MessageBody.methodWidth) :
    ({ request with sender := a.toHex }.withPayload payload).Fits ↔
      request.messageId.utf8ByteSize ≤ MessageBody.messageIdWidth ∧
      request.donId.utf8ByteSize ≤ MessageBody.donIdWidth := by
  constructor
  · intro h
    exact ⟨h.messageId, h.donId⟩
  · rintro ⟨hid, hdon⟩
    constructor
    · exact hid
    · exact hmethod
    · exact hdon
    · exact Nat.le_of_eq a.utf8ByteSize_toHex

/-- In a scope that is not cancelled an answer is sent exactly when its ids fit and there is a connection, provided that
signing does not fail. -/
private theorem exists_outgoing_iff (hv : v.cancelled = false) (hmethod : request.method.utf8ByteSize ≤ MessageBody.methodWidth)
    (hsign : ∀ e, n.reply request r ≠ .error (.signature e)) :
    (∃ m, n.outgoing request r v = .ok m) ↔
      request.messageId.utf8ByteSize ≤ 128 ∧ request.donId.utf8ByteSize ≤ 64 ∧ v.attached = true := by
  by_cases hfits : ({ request with sender := n.address.toHex }.withPayload r.toJson).Fits
  · obtain ⟨hid, hdon⟩ := (fits_reply hmethod).1 hfits
    obtain ⟨m, hm⟩ : ∃ m, n.reply request r = .ok m := by
      cases hsig : n.key.sign _ with
      | ok signature => exact ⟨_, Message.sign_of_ok hfits.signingBytes hsig⟩
      | error e => exact absurd (Message.sign_of_signature_error hfits.signingBytes hsig) (hsign e)
    rw [outgoing_of_reply hv hm]
    constructor
    · rintro ⟨m', hm'⟩
      cases ha : v.attached with
      | false => simp [ha] at hm'
      | true => exact ⟨hid, hdon, rfl⟩
    · rintro ⟨-, -, ha⟩
      exact ⟨m, by rw [ha]; rfl⟩
  · obtain ⟨field, length, max, he⟩ := MessageBody.signingBytes_of_not_fits hfits
    have hreply : n.reply request r = .error (.fieldTooLong field length max) := Message.sign_of_error he
    rw [outgoing_of_reply_error hv hreply]
    constructor
    · rintro ⟨m, hm⟩
      cases hm
    · rintro ⟨hid, hdon, -⟩
      exact absurd ((fits_reply hmethod).2 ⟨hid, hdon⟩) hfits

end Node

variable {n : Node} {parts : Collaborators σ} {d : Delivery} {t : List (Told σ)}

namespace Settled

variable {r : Response} {s : σ}

theorem admitted (h : Settled d t r s) : ∃ a, d.Admitted t a := by
  cases h with
  | refused ha => exact ⟨_, ha, _, List.mem_cons_self⟩
  | listed ha => exact ⟨_, ha, _, List.mem_cons_self⟩
  | written ha => exact ⟨_, ha, _, List.mem_cons_self⟩

theorem method_eq (h : Settled d t r s) :
    d.message.body.method = Method.list.name ∨ d.message.body.method = Method.set.name := by
  cases h with
  | @refused _ method _ _ _ hname =>
    cases method with
    | list => exact .inl (Method.eq_name_of_ofName? hname)
    | set => exact .inr (Method.eq_name_of_ofName? hname)
  | listed _ hname => exact .inl (Method.eq_name_of_ofName? hname)
  | written _ hname => exact .inr (Method.eq_name_of_ofName? hname)

private theorem settledIn?_eq (h : Settled d t r s) : Told.settledIn? t = some s := by
  cases h <;> rfl

private theorem settledIn?_append (h : Settled d t r s) (out : Delivery) (result : Except TransportError Unit) (s' : σ) :
    Told.settledIn? (t ++ [⟨.send out, result, s'⟩]) = some s := by
  cases h <;> rfl

private theorem admission (h : Settled d t r s) : ∃ a s' rest, Address.parse d.message.body.sender = .ok a ∧
    t = ⟨.allow a, true, s'⟩ :: rest ∧ (rest.map Told.call).filter Call.isAdmission = [] := by
  cases h with
  | refused ha => exact ⟨_, _, _, ha, rfl, rfl⟩
  | listed ha => exact ⟨_, _, _, ha, rfl, rfl⟩
  | written ha => exact ⟨_, _, _, ha, rfl, rfl⟩

theorem filterMap_sent? (h : Settled d t r s) : (t.map Told.call).filterMap Call.sent? = [] := by
  cases h <;> rfl

/-- A response that is settled can be answered exactly when something goes out. -/
private theorem answerable_iff (h : Settled d t r s) {u : List (Told σ)} (hpre : t <+: u)
    (hsettled : Told.settledIn? u = some s)
    (hlive : (parts.view s).cancelled = false) (hsign : ∀ e, n.reply d.message.body r ≠ .error (.signature e)) :
    d.Answerable parts u ↔ ∃ m, n.outgoing d.message.body r (parts.view s) = .ok m := by
  have hwidth : d.message.body.method.utf8ByteSize ≤ MessageBody.methodWidth := by
    rcases h.method_eq with hname | hname <;> rw [hname] <;> decide
  rw [Node.exists_outgoing_iff hlive hwidth hsign]
  constructor
  · intro ha
    obtain ⟨s', hs', hattached⟩ := ha.attached
    rw [hsettled] at hs'
    cases hs'
    exact ⟨ha.messageId, ha.donId, hattached⟩
  · rintro ⟨hid, hdon, hattached⟩
    obtain ⟨a, ha, s', hmem⟩ := h.admitted
    exact ⟨⟨a, ha, s', hpre.subset hmem⟩, h.method_eq, hid, hdon, s, hsettled, hattached⟩

end Settled

namespace Story

private theorem not_answerable_of_error {e : AddressError} (h : Address.parse d.message.body.sender = .error e) :
    ¬ d.Answerable parts t := by
  intro ha
  obtain ⟨a, hparse, -⟩ := ha.admitted
  rw [h] at hparse
  cases hparse

/-- At the end of a story the allowlist has said once whether it admits the sender, if this can be read. -/
private theorem admission_of_end (h : Story n parts d t none) {a : Address} (ha : Address.parse d.message.body.sender = .ok a) :
    (t.map Told.call).filter Call.isAdmission = [.allow a] ∧ ∃ admitted s, ⟨.allow a, admitted, s⟩ ∈ t := by
  have hsettled : ∀ {u : List (Told σ)} {r s}, Settled d u r s →
      (u.map Told.call).filter Call.isAdmission = [.allow a] ∧ ∃ admitted s, ⟨.allow a, admitted, s⟩ ∈ u := by
    intro u r s hsettled
    obtain ⟨a', s', rest, ha', rfl, hrest⟩ := hsettled.admission
    rw [ha] at ha'
    cases ha'
    refine ⟨?_, true, s', List.mem_cons_self⟩
    rw [List.map_cons, List.filter_cons_of_pos rfl, hrest]
  cases h with
  | invalid herror =>
    rw [ha] at herror
    cases herror
  | @notAllowed a' s ha' =>
    rw [ha] at ha'
    cases ha'
    exact ⟨rfl, false, s, List.mem_singleton_self _⟩
  | @unsupported a' s ha' =>
    rw [ha] at ha'
    cases ha'
    exact ⟨rfl, true, s, List.mem_singleton_self _⟩
  | unsent h => exact hsettled h
  | sent h =>
    obtain ⟨hadmissions, admitted, s, hmem⟩ := hsettled h
    refine ⟨?_, admitted, s, List.mem_append_left _ hmem⟩
    rw [List.map_append, List.filter_append, hadmissions]
    rfl

/-- At the end of a story exactly one answer has been sent, or none could be made. -/
private theorem sent_of_end (h : Story n parts d t none)
    (hlive : ∀ s, Told.settledIn? t = some s → (parts.view s).cancelled = false)
    (hsign : ∀ u r s, u <+: t → Settled d u r s → ∀ e, n.reply d.message.body r ≠ .error (.signature e)) :
    (d.Answerable parts t ∧ ∃ m, (t.map Told.call).filterMap Call.sent? = [⟨d.gateway, m⟩]) ∨
      (¬ d.Answerable parts t ∧ (t.map Told.call).filterMap Call.sent? = []) := by
  -- without a response a condition on the message fails, and with one it goes out exactly if it can
  cases h with
  | invalid herror => exact .inr ⟨not_answerable_of_error herror, rfl⟩
  | notAllowed ha =>
    refine .inr ⟨fun hanswer => ?_, rfl⟩
    obtain ⟨a', -, s', hmem⟩ := hanswer.admitted
    cases List.mem_singleton.1 hmem
  | unsupported ha hname =>
    refine .inr ⟨fun hanswer => ?_, rfl⟩
    rcases hanswer.method with hmethod | hmethod
    · rw [hmethod] at hname
      cases hname
    · rw [hmethod] at hname
      cases hname
  | @unsent _ r s e hsettled hout =>
    have hknown := hsettled.settledIn?_eq
    refine .inr ⟨fun hanswer => ?_, hsettled.filterMap_sent?⟩
    have hpre := List.prefix_refl t
    obtain ⟨m, hm⟩ := (hsettled.answerable_iff hpre hknown (hlive s hknown) (hsign t r s hpre hsettled)).1 hanswer
    rw [hout] at hm
    cases hm
  | @sent u r s s' m result hsettled hout =>
    have hknown := hsettled.settledIn?_append ⟨d.gateway, m⟩ result s'
    have hpre : u <+: u ++ [⟨.send ⟨d.gateway, m⟩, result, s'⟩] := List.prefix_append _ _
    have hanswer := hsettled.answerable_iff hpre hknown (hlive s hknown) (hsign u r s hpre hsettled)
    refine .inl ⟨hanswer.2 ⟨m, hout⟩, m, ?_⟩
    rw [List.map_append, List.filterMap_append, hsettled.filterMap_sent?]
    rfl

/-- Before the end of a story nothing has been sent, and what is about to be sent is an answer. -/
private theorem sent_of_call {call : Call} (h : Story n parts d t (some call))
    (hlive : ∀ s, Told.settledIn? t = some s → (parts.view s).cancelled = false)
    (hsign : ∀ u r s, u <+: t → Settled d u r s → ∀ e, n.reply d.message.body r ≠ .error (.signature e)) :
    (t.map Told.call).filterMap Call.sent? = [] ∧
      (call.sent? = none ∨ d.Answerable parts t ∧ ∃ m, call.sent? = some ⟨d.gateway, m⟩) := by
  cases h with
  | admission => exact ⟨rfl, .inl rfl⟩
  | listing => exact ⟨rfl, .inl rfl⟩
  | writing => exact ⟨rfl, .inl rfl⟩
  | @sending _ r s m hsettled hout =>
    have hknown := hsettled.settledIn?_eq
    have hpre := List.prefix_refl t
    have hanswer := hsettled.answerable_iff hpre hknown (hlive s hknown) (hsign t r s hpre hsettled)
    exact ⟨hsettled.filterMap_sent?, .inr ⟨hanswer.2 ⟨m, hout⟩, m, rfl⟩⟩

end Story

namespace Delivery.Asks

variable {call call' : Call}

private theorem admitted (h : d.Asks t call) : ∃ a, d.Admitted t a := by
  cases h with
  | list ha => exact ⟨_, ha⟩
  | put ha => exact ⟨_, ha⟩

/-- A message that asks something of the storage has a method, and its payload fits. -/
private theorem decodes (h : d.Asks t call) :
    ∃ method request, Method.ofName? d.message.body.method = some method ∧
      method.decode d.message.body.payloadBytes = .ok request := by
  cases h with
  | list _ hname => exact ⟨.list, .list, hname ▸ Method.ofName?_name .list, rfl⟩
  | put _ hname hp => exact ⟨.set, _, hname ▸ Method.ofName?_name .set, hp⟩

private theorem unique (h : d.Asks t call) (h' : d.Asks t call') : call = call' := by
  cases h with
  | list ha hname =>
    cases h' with
    | list ha' =>
      have hparse := ha.1.symm.trans ha'.1
      cases hparse
      rfl
    | put _ hname' =>
      rw [hname] at hname'
      exact absurd hname' (by decide)
  | put ha hname hp =>
    cases h' with
    | list _ hname' =>
      rw [hname] at hname'
      exact absurd hname' (by decide)
    | put ha' _ hp' =>
      have hparse := ha.1.symm.trans ha'.1
      cases hparse
      have hrequest := hp.symm.trans hp'
      cases hrequest
      rfl

end Delivery.Asks

/-- A settled response has been to the storage once if the message asks for it, and else never. -/
theorem Settled.stored {r : Response} {s : σ} (h : Settled d t r s) {u : List (Told σ)} (hpre : t <+: u) :
    (∃ call, d.Asks u call ∧ (t.map Told.call).filter Call.isStoring = [call]) ∨
      ((∀ call, ¬ d.Asks u call) ∧ (t.map Told.call).filter Call.isStoring = []) := by
  cases h with
  | refused _ hname herror =>
    refine .inr ⟨fun call hasks => ?_, rfl⟩
    obtain ⟨method, request, hname', hp⟩ := hasks.decodes
    rw [hname] at hname'
    cases hname'
    rw [herror] at hp
    cases hp
  | listed ha hname =>
    exact .inl ⟨_, .list ⟨ha, _, hpre.subset List.mem_cons_self⟩ (Method.eq_name_of_ofName? hname), rfl⟩
  | written ha hname hp =>
    exact .inl ⟨_, .put ⟨ha, _, hpre.subset List.mem_cons_self⟩ (Method.eq_name_of_ofName? hname) hp, rfl⟩

/-- A story goes to the storage once if the message asks for it, and else never. -/
theorem Story.stored {next : Option Call} (h : Story n parts d t next) :
    (∃ call, d.Asks t call ∧ (t.map Told.call ++ next.toList).filter Call.isStoring = [call]) ∨
      ((∀ call, ¬ d.Asks t call) ∧ (t.map Told.call ++ next.toList).filter Call.isStoring = []) := by
  have hunadmitted : (∀ a, ¬ d.Admitted t a) → ∀ call, ¬ d.Asks t call := by
    intro hno call hasks
    obtain ⟨a, ha⟩ := hasks.admitted
    exact hno a ha
  cases h with
  | invalid =>
    refine .inr ⟨hunadmitted ?_, rfl⟩
    rintro a ⟨-, s, hmem⟩
    cases hmem
  | admission =>
    refine .inr ⟨hunadmitted ?_, rfl⟩
    rintro a ⟨-, s, hmem⟩
    cases hmem
  | notAllowed =>
    refine .inr ⟨hunadmitted ?_, rfl⟩
    rintro a ⟨-, s, hmem⟩
    cases List.mem_singleton.1 hmem
  | unsupported _ hname =>
    refine .inr ⟨fun call hasks => ?_, rfl⟩
    obtain ⟨method, request, hname', -⟩ := hasks.decodes
    rw [hname] at hname'
    cases hname'
  | listing ha hname =>
    exact .inl ⟨_, .list ⟨ha, _, List.mem_singleton.2 rfl⟩ (Method.eq_name_of_ofName? hname), rfl⟩
  | writing ha hname hp =>
    exact .inl ⟨_, .put ⟨ha, _, List.mem_singleton.2 rfl⟩ (Method.eq_name_of_ofName? hname) hp, rfl⟩
  | unsent hsettled =>
    simpa using hsettled.stored (List.prefix_refl t)
  | sending hsettled =>
    simpa [Call.isStoring] using hsettled.stored (List.prefix_refl t)
  | sent hsettled =>
    simpa [Call.isStoring] using hsettled.stored (List.prefix_append _ _)

namespace Sample

/-- A request to keep a secret that does not say which. -/
def request : Delivery := ⟨"gateway", ⟨"", ⟨"id", "secrets_set", "session", Address.zero.toHex, none⟩⟩⟩

/-- A world in which everything is answered at once. -/
def world : World :=
  { station := { allowlist := .ofList [.zero] }, storage := .memory (.fresh .standard) 0
    link := some { capacity := 1 } }

def node : Node := ⟨"connector", .five⟩

/-- The digest of the answer. -/
def digest : Bytes :=
  [48, 59, 98, 3, 89, 40, 85, 245, 1, 87, 219, 198, 237, 79, 45, 196, 208, 10, 96, 219, 83, 191, 160, 128, 169, 32, 142,
   200, 144, 210, 121, 49]

/-- The signature of the answer. -/
def signature : Signature :=
  ⟨10287541857583670493510645866858258370742258933104358660759506848331842805000,
   30399725673485114037238331000892648816148946075047637639022272473508202530773, 0⟩

/-- The answer to the request. -/
def answer : Message :=
  ⟨Hex.marked signature.toBytes,
   { request.message.body with sender := Address.five.toHex }.withPayload (Response.badRequest .set .missingPayload).toJson⟩

/-- The node signs the answer, and is recovered from the signature. -/
theorem signed_answer : ∃ data, answer.body.signingBytes = .ok data ∧ Keccak.digest data = digest ∧
    node.key.sign data = .ok signature.toBytes ∧ node.key.Recovers data := by
  have hsig : (node.key.signDigest digest).toOption = some signature := by decide +kernel
  exact MessageBody.exists_signed (by decide +kernel) hsig (by decide) (by decide +kernel)

theorem reply_request : node.reply request.message.body (.badRequest .set .missingPayload) = .ok answer := by
  obtain ⟨data, hdata, -, hsign, -⟩ := signed_answer
  have haddress : node.address = .five := SigningKey.address_five
  rw [Node.reply, haddress]
  exact Message.sign_of_ok hdata hsign

private theorem next_receive_request : (Node.receive request).next = some (.allow .zero) :=
  Node.next_receive_of_ok (Address.parse_toHex .zero)

private theorem next_serve_request {n : Node} {m : Message}
    (h : n.reply request.message.body (.badRequest .set .missingPayload) = .ok m) :
    (n.serve request .zero ⟨false, true⟩).next = some (.send ⟨"gateway", m⟩) := by
  have hname : Method.ofName? request.message.body.method = some .set := rfl
  rw [Node.next_serve_of_error hname rfl]
  apply Node.next_answer_of_ok
  rw [Node.outgoing_of_reply rfl h]
  rfl

/-- The node asks the allowlist, and then it sends the answer. -/
theorem course_request (n : Node) {m : Message}
    (h : n.reply request.message.body (.badRequest .set .missingPayload) = .ok m) :
    (n.course (World.collaborators ⟨0, none⟩) request world [.wake]).looks.map Look.call =
      [.allow .zero, .send ⟨"gateway", m⟩] ∧
    (n.course (World.collaborators ⟨0, none⟩) request world [.wake]).begun = [.allow .zero, .send ⟨"gateway", m⟩] ∧
    (n.course (World.collaborators ⟨0, none⟩) request world [.wake]).stage = .ended := by
  let parts := (World.collaborators ⟨0, none⟩).noted
  let out : Delivery := ⟨"gateway", m⟩
  -- three steps: the sender is read, admitted, and answered
  have harrived : n.step parts request (world, []) .arrived =
      ⟨(world, []), .asking (.allow .zero) false, (Node.receive request).events, false⟩ := by
    rw [Node.step, Stage.after_of_some next_receive_request]
  let looks : List (Look World) := [⟨.allow .zero, true, world, world, some true⟩]
  have hallow : parts.poll (.allow .zero) false (world, []) = ((world, looks), ⟨[], some true⟩) := rfl
  have hallowed : n.step parts request (world, []) (.asking (.allow .zero) false) =
      ⟨(world, looks), .asking (.send out) false, (n.serve request .zero ⟨false, true⟩).events, false⟩ := by
    have hnext : (n.resume request (parts.view (world, looks)) (.allow .zero) (some true)).next = some (.send out) :=
      next_serve_request h
    rw [Node.step_of_some n request false rfl hallow]
    rw [Stage.after_of_some hnext]
    rfl
  obtain ⟨world', hsend⟩ : ∃ world', parts.poll (.send out) false (world, looks) =
      ((world', looks ++ [⟨.send out, true, world, world', some (.ok ())⟩]), ⟨[], some (.ok ())⟩) := ⟨_, rfl⟩
  have hsent := Node.step_of_some n request false rfl hsend
  have hlast : Stage.after (n.resume request
      (parts.view (world', looks ++ [⟨.send out, true, world, world', some (.ok ())⟩])) (.send out) (some (.ok ()))) =
      .ended := rfl
  rw [hlast] at hsent
  have hended : ∀ s, n.step parts request s .ended = ⟨s, .ended, [], false⟩ := fun _ => rfl
  have hpoll : (n.poll (World.collaborators ⟨0, none⟩).noted request (world, []) .arrived).state =
      (world', looks ++ [⟨.send out, true, world, world', some (.ok ())⟩]) ∧
      (n.poll (World.collaborators ⟨0, none⟩).noted request (world, []) .arrived).stage = .ended := by
    change (n.poll parts request (world, []) .arrived).state = _ ∧ (n.poll parts request (world, []) .arrived).stage = _
    simp only [Node.poll, Stage.rank, Node.advance, harrived, hallowed, hsent, hended, Bool.false_eq_true, ↓reduceIte,
      and_self]
  simp only [Node.course, List.foldl_cons, List.foldl_nil, Course.move, hpoll]
  exact ⟨rfl, rfl, trivial⟩

private theorem response_request {u : List (Told World)} {r : Response} {s : World} (h : Settled request u r s) :
    r = .badRequest .set .missingPayload := by
  have hset : Method.ofName? request.message.body.method = some .set := rfl
  have hmissing : Method.set.decode request.message.body.payloadBytes = .error .missingPayload := rfl
  cases h with
  | refused _ hname hp =>
    rw [hset] at hname
    cases hname
    rw [hmissing] at hp
    cases hp
    rfl
  | listed _ hname =>
    rw [hset] at hname
    cases hname
  | written _ _ hp =>
    rw [hmissing] at hp
    cases hp

/-- A request to list whose id is too long. -/
def wordy : Delivery :=
  ⟨"gateway", ⟨"", ⟨String.ofList (List.replicate 129 'm'), "secrets_list", "session", Address.zero.toHex, none⟩⟩⟩

/-- The node asks the allowlist and the storage, and then there is nothing that it could sign. -/
private theorem course_wordy : (node.course (World.collaborators ⟨0, none⟩) wordy world [.wake]).stage = .ended ∧
    (node.course (World.collaborators ⟨0, none⟩) wordy world [.wake]).begun = [.allow .zero, .list .zero] := by
  decide +kernel

private theorem reply_wordy (r : Response) : ∀ e, node.reply wordy.message.body r ≠ .error (.signature e) := by
  intro e he
  have hlong : ¬ wordy.message.body.messageId.utf8ByteSize ≤ MessageBody.messageIdWidth := by decide +kernel
  have hnot : ¬ ({ wordy.message.body with sender := node.address.toHex }.withPayload r.toJson).Fits :=
    fun hfits => hlong hfits.messageId
  obtain ⟨field, length, max, hbytes⟩ := MessageBody.signingBytes_of_not_fits hnot
  have hreply : node.reply wordy.message.body r = .error (.fieldTooLong field length max) := Message.sign_of_error hbytes
  rw [hreply] at he
  cases he

/-- The scope is not cancelled, and never will be by the storage. -/
def Live (w : World) : Prop := w.timeline.moment.cancelled = [] ∧ ∃ store clock, w.storage = .memory store clock

private theorem Live.poll {w : World} (h : Live w) (root : Root) (begun : Bool) (call : Call) :
    Live (w.poll root begun call).1 := by
  obtain ⟨hroots, store, clock, hstorage⟩ := h
  cases call with
  | allow _ => exact ⟨hroots, store, clock, hstorage⟩
  | list _ =>
    unfold World.poll
    rw [hstorage]
    exact ⟨hroots, store, clock, hstorage⟩
  | put write =>
    unfold World.poll
    rw [hstorage]
    dsimp only
    cases store.put clock write with
    | ok store' => exact ⟨hroots, store', clock, rfl⟩
    | error _ => exact ⟨hroots, store, clock, hstorage⟩
  | send d =>
    unfold World.poll World.transmit
    dsimp only
    split
    · exact ⟨hroots, store, clock, hstorage⟩
    · split
      · exact ⟨hroots, store, clock, hstorage⟩
      · exact ⟨hroots, store, clock, hstorage⟩
      · exact ⟨hroots, store, clock, hstorage⟩

private theorem Live.uncancelled {w : World} (h : Live w) : ((World.collaborators ⟨0, none⟩).view w).cancelled = false := by
  show (w.timeline.moment.cancelled.contains 0 || false) = false
  rw [h.1]
  rfl

end Sample

/-! ### All calls of a course -/

namespace Course

variable {c : Course σ} {call : Call} {begun : Bool}

/-- What a course was told, it was told in a state after a look. -/
private theorem exists_look_of_settledIn? {s : σ} (h : Told.settledIn? c.told = some s) : ∃ look ∈ c.looks, look.after = s := by
  obtain ⟨u, hu, rfl⟩ := Option.map_eq_some_iff.1 h
  have hmem := (List.mem_filter.1 (List.mem_of_getLast? hu)).1
  obtain ⟨look, hlook, htold⟩ := List.mem_filterMap.1 hmem
  obtain ⟨a, -, rfl⟩ := Option.map_eq_some_iff.1 htold
  exact ⟨look, hlook, rfl⟩

private theorem begun_of_looks_nil (h : c.looks = []) : c.begun = [] := by
  rw [begun, h]
  rfl

/-- While a course asks for a call, it may have begun to send an answer. -/
private theorem sendings_of_asking (hbegun : c.begun = c.told.map Told.call ++ (if begun then [call] else []))
    (hnone : (c.told.map Told.call).filterMap Call.sent? = [])
    (hcall : call.sent? = none ∨ d.Answerable parts c.told ∧ ∃ m, call.sent? = some ⟨d.gateway, m⟩) :
    c.sendings = [] ∨ d.Answerable parts c.told ∧ ∃ m, c.sendings = [⟨d.gateway, m⟩] := by
  rw [sendings, hbegun, List.filterMap_append, hnone]
  cases begun with
  | false => exact .inl rfl
  | true =>
    rcases hcall with hcall | ⟨hanswer, m, hcall⟩
    · exact .inl (by simp [hcall])
    · exact .inr ⟨hanswer, m, by simp [hcall]⟩

/-- A course that has begun a part of some calls, of which one goes to the storage, has begun this one or none. -/
theorem storings_of_begun_part {calls : List Call} (hpre : c.begun <+: calls) (hstored : calls.filter Call.isStoring = [call]) :
    c.storings = [] ∨ c.storings = [call] := by
  have hstorings : c.storings <+: [call] := hstored ▸ hpre.filter Call.isStoring
  rcases List.prefix_cons_iff.1 hstorings with hnil | ⟨rest, hcons, hrest⟩
  · exact .inl hnil
  · rw [List.prefix_nil.1 hrest] at hcons
    exact .inr hcons

/-- While a course asks for a call, it may have begun what the message asks of the storage. -/
private theorem storings_of_asking (hbegun : c.begun = c.told.map Told.call ++ (if begun then [call] else []))
    (hstored : (∃ call', d.Asks c.told call' ∧
        (c.told.map Told.call ++ (some call).toList).filter Call.isStoring = [call']) ∨
      ((∀ call', ¬ d.Asks c.told call') ∧ (c.told.map Told.call ++ (some call).toList).filter Call.isStoring = [])) :
    c.storings = [] ∨ ∃ call', d.Asks c.told call' ∧ c.storings = [call'] := by
  have hpre := begun_part_of_asking hbegun
  rcases hstored with ⟨call', hasks, hstored⟩ | ⟨-, hstored⟩
  · exact (storings_of_begun_part hpre hstored).imp_right fun hone => ⟨call', hasks, hone⟩
  · have hnone : c.storings <+: [] := hstored ▸ hpre.filter Call.isStoring
    exact .inl (List.prefix_nil.1 hnone)

private theorem sendings_of_ended
    (hsent : (d.Answerable parts c.told ∧ ∃ m, c.sendings = [⟨d.gateway, m⟩]) ∨
      (¬ d.Answerable parts c.told ∧ c.sendings = [])) :
    (c.sendings = [] ∨ d.Answerable parts c.told ∧ ∃ m, c.sendings = [⟨d.gateway, m⟩]) ∧
      (d.Answerable parts c.told ↔ ∃ m, c.sendings = [⟨d.gateway, m⟩]) := by
  rcases hsent with ⟨hanswer, hone⟩ | ⟨hanswer, hnil⟩
  · exact ⟨.inr ⟨hanswer, hone⟩, fun _ => hone, fun _ => hanswer⟩
  · refine ⟨.inl hnil, fun h => absurd h hanswer, ?_⟩
    rintro ⟨m, hm⟩
    rw [hnil] at hm
    cases hm

private theorem storings_of_ended
    (hstored : (∃ call, d.Asks c.told call ∧ c.storings = [call]) ∨ ((∀ call, ¬ d.Asks c.told call) ∧ c.storings = [])) :
    (c.storings = [] ∨ ∃ call, d.Asks c.told call ∧ c.storings = [call]) ∧
      ∀ call, d.Asks c.told call ↔ c.storings = [call] := by
  rcases hstored with ⟨call', hasks, hone⟩ | ⟨hnone, hnil⟩
  · refine ⟨.inr ⟨call', hasks, hone⟩, fun call => ?_⟩
    constructor
    · intro h
      rw [h.unique hasks]
      exact hone
    · intro h
      rw [hone] at h
      cases h
      exact hasks
  · refine ⟨.inl hnil, fun call => ?_⟩
    constructor
    · intro h
      exact absurd h (hnone call)
    · intro h
      rw [hnil] at h
      cases h

end Course

/-- What an exchange does in a scope that is never cancelled (the states with `live` are kept), for a key that does not
fail to sign: it comes to its end unless it still waits. What it was told is what the parts around the node have answered, and
when it has ended all its calls are answered; it has asked the allowlist once, if the sender can be read. It sends nothing but
one answer, to the gateway that the message came from, and when it has ended it has done so if and only if there is an answer
that can be made and sent. It goes to the storage for nothing but what the message asks for, once, and when it has ended it has
done so. -/
theorem Node.calls_of_course (n : Node) (parts : Collaborators σ) (d : Delivery) (state : σ) (moves : List (Move σ))
    (live : σ → Prop) (hstart : live state) (hlive : ∀ s, live s → (parts.view s).cancelled = false)
    (hpoll : ∀ call begun s, live s → live (parts.poll call begun s).1)
    (hstir : ∀ change, .stir change ∈ moves → ∀ s, live s → live (change s))
    (hsign : ∀ u r s, u <+: (n.course parts d state moves).told → Settled d u r s →
      ∀ e, n.reply d.message.body r ≠ .error (.signature e)) :
    let c := n.course parts d state moves
    (c.stage = .ended ∨ moves.countP Move.isWake ≤ Look.waits c.looks) ∧
    (∀ u ∈ c.told, ∃ begun s events, parts.poll u.call begun s = (u.after, ⟨events, some u.answer⟩)) ∧
    (c.stage = .ended → c.begun = c.told.map Told.call) ∧
    (c.stage = .ended → ∀ a, Address.parse d.message.body.sender = .ok a →
      c.admissions = [.allow a] ∧ ∃ admitted s, ⟨.allow a, admitted, s⟩ ∈ c.told) ∧
    (c.sendings = [] ∨ d.Answerable parts c.told ∧ ∃ m, c.sendings = [⟨d.gateway, m⟩]) ∧
    (c.stage = .ended → (d.Answerable parts c.told ↔ ∃ m, c.sendings = [⟨d.gateway, m⟩])) ∧
    (c.storings = [] ∨ ∃ call, d.Asks c.told call ∧ c.storings = [call]) ∧
    (c.stage = .ended → ∀ call, d.Asks c.told call ↔ c.storings = [call]) := by
  intro c
  have hreached : Course.Reached n parts d state moves c := n.reached_course parts d state moves
  have hsettled : ∀ s, Told.settledIn? c.told = some s → (parts.view s).cancelled = false := by
    intro s hs
    obtain ⟨look, hlook, rfl⟩ := Course.exists_look_of_settledIn? hs
    exact hlive _ (hreached.holds_after hstart hpoll hstir hlook)
  refine ⟨n.wakes_le_waits_or_ended parts d state moves, fun u hu => ?_, ?_⟩
  · obtain ⟨look, hlook, htold⟩ := List.mem_filterMap.1 hu
    obtain ⟨events, hpoll⟩ := hreached.poll_of_mem_looks hlook
    rw [look.eq_of_told? htold] at hpoll
    exact ⟨_, _, events, hpoll⟩
  -- the calls are read off the story, which is at its end only if the course is
  cases hreached.isTold with
  | arrived hstage hlooks =>
    have hunended : c.stage ≠ .ended := by
      rw [hstage]
      exact Stage.noConfusion
    have hbegun := Course.begun_of_looks_nil hlooks
    refine ⟨fun hend => absurd hend hunended, fun hend => absurd hend hunended, .inl ?_, fun hend => absurd hend hunended,
      .inl ?_, fun hend => absurd hend hunended⟩
    · rw [Course.sendings, hbegun, List.filterMap_nil]
    · rw [Course.storings, hbegun, List.filter_nil]
  | asking hstage hstory hbegun =>
    have hunended : c.stage ≠ .ended := by
      rw [hstage]
      exact Stage.noConfusion
    obtain ⟨hnone, hcall⟩ := hstory.sent_of_call hsettled hsign
    have hsendings := Course.sendings_of_asking hbegun hnone hcall
    have hstorings := Course.storings_of_asking hbegun hstory.stored
    exact ⟨fun hend => absurd hend hunended, fun hend => absurd hend hunended, hsendings, fun hend => absurd hend hunended,
      hstorings, fun hend => absurd hend hunended⟩
  | ended hstage hstory hbegun =>
    have hsent := hstory.sent_of_end hsettled hsign
    have hstored := hstory.stored
    rw [Option.toList_none, List.append_nil, ← hbegun] at hstored
    rw [← hbegun] at hsent
    obtain ⟨hsendings, hanswer⟩ := Course.sendings_of_ended hsent
    obtain ⟨hstorings, hasks⟩ := Course.storings_of_ended hstored
    refine ⟨fun _ => hbegun, fun _ a ha => ?_, hsendings, fun _ => hanswer, hstorings, fun _ => hasks⟩
    rw [Course.admissions, hbegun]
    exact hstory.admission_of_end ha
  | dropped _ hreached' hcancelled =>
    rw [hlive _ (hreached'.holds hstart hpoll hstir)] at hcancelled
    cases hcancelled

/-- A request that is answered without the storage, and one for which the storage is asked in vain, since its id is too long to
be repeated. -/
theorem Node.calls_of_sample :
    let parts := World.collaborators ⟨0, none⟩
    let c := Sample.node.course parts Sample.request Sample.world [.wake]
    let c' := Sample.node.course parts Sample.wordy Sample.world [.wake]
    (c.stage = .ended ∧ c.admissions = [.allow .zero] ∧ c.sendings = [⟨"gateway", Sample.answer⟩] ∧ c.storings = [] ∧
      Sample.request.Answerable parts c.told) ∧
    c'.stage = .ended ∧ c'.admissions = [.allow .zero] ∧ c'.sendings = [] ∧ c'.storings = [.list .zero] ∧
      Sample.wordy.Asks c'.told (.list .zero) ∧ ¬ Sample.wordy.Answerable parts c'.told := by
  intro parts c c'
  obtain ⟨-, hbegun, hended⟩ := Sample.course_request Sample.node Sample.reply_request
  obtain ⟨hended', hbegun'⟩ := Sample.course_wordy
  have hlive : ∀ w, Sample.Live w → (parts.view w).cancelled = false := fun _ => Sample.Live.uncancelled
  have hpoll : ∀ call begun w, Sample.Live w → Sample.Live (parts.poll call begun w).1 :=
    fun call begun _ hw => hw.poll 0 begun call
  have hstir : ∀ change, .stir change ∈ [Move.wake] → ∀ w, Sample.Live w → Sample.Live (change w) :=
    fun change hchange => by simp at hchange
  obtain ⟨-, -, -, hasked, -, hsent, -, -⟩ := Node.calls_of_course Sample.node parts Sample.request Sample.world [.wake]
    Sample.Live ⟨rfl, _, _, rfl⟩ hlive hpoll hstir (fun u r s _ hsettled e he => by
      rw [Sample.response_request hsettled, Sample.reply_request] at he
      cases he)
  obtain ⟨-, -, -, hasked', -, hsent', -, hstored'⟩ := Node.calls_of_course Sample.node parts Sample.wordy Sample.world [.wake]
    Sample.Live ⟨rfl, _, _, rfl⟩ hlive hpoll hstir (fun u r s _ _ => Sample.reply_wordy r)
  have hsendings : c.sendings = [⟨"gateway", Sample.answer⟩] := congrArg (List.filterMap Call.sent?) hbegun
  have hsendings' : c'.sendings = [] := congrArg (List.filterMap Call.sent?) hbegun'
  have hstorings' : c'.storings = [.list .zero] := congrArg (List.filter Call.isStoring) hbegun'
  refine ⟨⟨hended, (hasked hended _ (Address.parse_toHex .zero)).1, hsendings, congrArg (List.filter Call.isStoring) hbegun,
    (hsent hended).2 ⟨_, hsendings⟩⟩, hended', (hasked' hended' _ (Address.parse_toHex .zero)).1, hsendings', hstorings',
    (hstored' hended' _).2 hstorings', fun hanswer => ?_⟩
  obtain ⟨m, hm⟩ := (hsent' hended').1 hanswer
  rw [hsendings'] at hm
  cases hm

end SecretsGateway
