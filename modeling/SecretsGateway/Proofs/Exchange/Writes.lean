import SecretsGateway.Proofs.Exchange.Answers
import SecretsGateway.Proofs.Message.Received
import SecretsGateway.Proofs.Secret.Envelope
import SecretsGateway.Proofs.Store.Origin
import SecretsGateway.Proofs.World

/-!
# Writes on their way to the storage

The way of a write from the client that signs it to the storage. A message that asks to keep a secret tells one story if its
sender is admitted: the write goes to the storage once, and the answer is what the storage says (`Story.of_requests`). The
write arrives as it was signed, so the storage may refuse it for its limits or its version, but never for its signature
(`Node.write_honoured`).
-/

namespace SecretsGateway

variable {σ : Type}

section Requests

/-- The message is a request of an account to keep a secret. -/
structure Delivery.Requests (d : Delivery) (a : Address) (r : SetRequest) : Prop where
  sender : Address.parse d.message.body.sender = .ok a
  method : Method.ofName? d.message.body.method = some .set
  payload : Method.set.decode d.message.body.payloadBytes = .ok (.set r)

variable {n : Node} {parts : Collaborators σ} {d : Delivery} {a : Address} {r : SetRequest}

/-- The response to a write is what the storage has answered. -/
private theorem Settled.of_requests {t : List (Told σ)} {response : Response} {s : σ} (h : Settled d t response s)
    (hd : d.Requests a r) : ∃ s₀ result, t = [⟨.allow a, true, s₀⟩, ⟨.put (r.toWrite a), result, s⟩] ∧
      response = .ofWritten result := by
  cases h with
  | refused _ hname herror =>
    rw [hd.method] at hname
    cases hname
    rw [hd.payload] at herror
    cases herror
  | listed _ hname =>
    rw [hd.method] at hname
    cases hname
  | @written _ _ result s₀ _ hsender _ hpayload =>
    rw [hd.sender] at hsender
    cases hsender
    rw [hd.payload] at hpayload
    cases hpayload
    exact ⟨s₀, result, rfl, rfl⟩

/-- The story of a write whose sender is not refused: it has not begun yet, or it comes to the storage once. -/
theorem Story.of_requests {t : List (Told σ)} {next : Option Call} (h : Story n parts d t next) (hd : d.Requests a r)
    (hallowed : ∀ s, ⟨.allow a, false, s⟩ ∉ t) : (t = [] ∧ next = some (.allow a)) ∨
      (t.map Told.call ++ next.toList).filter Call.isStoring = [.put (r.toWrite a)] := by
  -- the sender, the method and the payload of the request rule out all other stories
  cases h with
  | invalid herror =>
    rw [hd.sender] at herror
    cases herror
  | admission hsender =>
    rw [hd.sender] at hsender
    cases hsender
    exact .inl ⟨rfl, rfl⟩
  | notAllowed hsender =>
    rw [hd.sender] at hsender
    cases hsender
    exact absurd (List.mem_singleton_self _) (hallowed _)
  | unsupported _ hname =>
    rw [hd.method] at hname
    cases hname
  | listing _ hname =>
    rw [hd.method] at hname
    cases hname
  | writing hsender _ hpayload =>
    rw [hd.sender] at hsender
    cases hsender
    rw [hd.payload] at hpayload
    cases hpayload
    exact .inr rfl
  | unsent hsettled =>
    obtain ⟨s₀, result, rfl, -⟩ := hsettled.of_requests hd
    exact .inr rfl
  | sending hsettled =>
    obtain ⟨s₀, result, rfl, -⟩ := hsettled.of_requests hd
    exact .inr rfl
  | sent hsettled =>
    obtain ⟨s₀, result, rfl, -⟩ := hsettled.of_requests hd
    exact .inr rfl

namespace Course

variable {state : σ} {moves : List (Move σ)} {c : Course σ} {live : σ → Prop} (hd : d.Requests a r) (hstart : live state)
  (hlive : ∀ s, live s → (parts.view s).cancelled = false)
  (hallow : ∀ begun s, live s → (parts.poll (.allow a) begun s).2.answer = some true)
  (hpoll : ∀ call begun s, live s → live (parts.poll call begun s).1)
  (hstir : ∀ change, .stir change ∈ moves → ∀ s, live s → live (change s))

include hstart hallow hpoll hstir

/-- The allowlist always answers, and it admits the sender. -/
private theorem answer_of_allow (h : Reached n parts d state moves c) {look : Look σ} (hlook : look ∈ c.looks)
    (hcall : look.call = .allow a) : ∃ s s', look = ⟨.allow a, look.isFirst, s, s', some true⟩ := by
  obtain ⟨c', h', -, -, hbefore, -⟩ := h.exists_of_mem_looks hlook
  have hlived := h'.holds hstart hpoll hstir
  obtain ⟨events, hp⟩ := h.poll_of_mem_looks hlook
  rw [hbefore] at hlived
  obtain ⟨call, isFirst, s, s', answer⟩ := look
  cases hcall
  have hanswer := hallow (!isFirst) s hlived
  rw [hp] at hanswer
  cases hanswer
  exact ⟨s, s', rfl⟩

private theorem not_refused (h : Reached n parts d state moves c) (s : σ) : ⟨.allow a, false, s⟩ ∉ c.told := by
  intro hmem
  obtain ⟨look, hlook, htold⟩ := List.mem_filterMap.1 hmem
  have hlook' := Look.eq_of_told? htold
  obtain ⟨s₁, s₂, heq⟩ := answer_of_allow hstart hallow hpoll hstir h hlook (by rw [hlook'])
  rw [hlook'] at heq
  cases heq

include hd

/-- Nothing goes to the storage but the write, and it goes there once. -/
private theorem Reached.storings_of_requests (h : Reached n parts d state moves c) :
    c.storings = [] ∨ c.storings = [.put (r.toWrite a)] := by
  rcases h.isTold.begun_part_of_story with hlooks | ⟨next, hstory, hbegun⟩
  · left
    rw [storings, begun, hlooks]
    rfl
  rcases hstory.of_requests hd (not_refused hstart hallow hpoll hstir h) with ⟨htold, rfl⟩ | hstored
  · left
    rw [htold] at hbegun
    exact List.prefix_nil.1 (hbegun.filter Call.isStoring)
  · exact storings_of_begun_part hbegun hstored

private theorem Reached.call_of_requests (h : Reached n parts d state moves c) {look : Look σ} (hlook : look ∈ c.looks)
    (hstoring : look.call.isStoring = true) : look.call = .put (r.toWrite a) := by
  have hmem : look.call ∈ c.storings := List.mem_filter.2 ⟨h.mem_begun_of_mem_looks hlook, hstoring⟩
  rcases h.storings_of_requests hd hstart hallow hpoll hstir with hnone | hone
  · rw [hnone] at hmem
    cases hmem
  · rw [hone] at hmem
    exact List.mem_singleton.1 hmem

include hlive

/-- The write has gone to the storage when the exchange has ended or has to wait, for the allowlist never lets it wait. -/
private theorem Reached.mem_begun_of_requests (h : Reached n parts d state moves c)
    (hdone : c.stage = .ended ∨ 0 < Look.waits c.looks) : .put (r.toWrite a) ∈ c.begun := by
  have hadmitted := not_refused hstart hallow hpoll hstir h
  have htold := h.isTold.told_part_of_begun.subset
  rcases hdone with hended | hwaits
  · cases h.isTold with
    | arrived hstage => simp [hended] at hstage
    | asking hstage => simp [hended] at hstage
    | ended _ hstory =>
      rcases hstory.of_requests hd hadmitted with ⟨-, hnext⟩ | hstored
      · cases hnext
      · rw [Option.toList_none, List.append_nil] at hstored
        have hmem : Call.put (r.toWrite a) ∈ (c.told.map Told.call).filter Call.isStoring := hstored ▸ List.mem_singleton_self _
        exact htold (List.mem_filter.1 hmem).1
    | dropped _ h' hcancelled =>
      rw [hlive _ (h'.holds hstart hpoll hstir)] at hcancelled
      cases hcancelled
  · obtain ⟨look, hlook, hwaiting⟩ := List.countP_pos_iff.1 hwaits
    obtain ⟨t, hpre, hstory⟩ := h.story_of_mem_looks hlook
    rcases hstory.of_requests hd (fun s hs => hadmitted s (hpre.subset hs)) with ⟨-, hcall⟩ | hstored
    · obtain ⟨s, s', heq⟩ := answer_of_allow hstart hallow hpoll hstir h hlook (Option.some.inj hcall)
      rw [heq] at hwaiting
      cases hwaiting
    · have hmem : Call.put (r.toWrite a) ∈ (t.map Told.call ++ [look.call]).filter Call.isStoring :=
        hstored ▸ List.mem_singleton_self _
      rcases List.mem_append.1 (List.mem_filter.1 hmem).1 with hmem | hmem
      · exact htold ((hpre.map _).subset hmem)
      · rw [List.mem_singleton.1 hmem]
        exact h.mem_begun_of_mem_looks hlook

end Course

/-- What is sent in answer to a write tells what the storage has answered. -/
private theorem Course.Reached.told_of_requests {state : σ} {moves : List (Move σ)} {c : Course σ}
    (h : Reached n parts d state moves c) (hd : d.Requests a r) {look : Look σ} (hlook : look ∈ c.looks) {out : Delivery}
    (hcall : look.call = .send out) : ∃ result s, ⟨.put (r.toWrite a), result, s⟩ ∈ c.told ∧
      Response.read out.message.body.method out.message.body.payloadBytes = .ok (.ofWritten result) := by
  obtain ⟨t, hpre, hstory⟩ := h.story_of_mem_looks hlook
  rw [hcall] at hstory
  cases hstory with
  | @sending _ response s m hsettled hout =>
    obtain ⟨s₀, result, rfl, rfl⟩ := hsettled.of_requests hd
    obtain ⟨hreply, -, -⟩ := Node.reply_of_outgoing hout
    obtain ⟨⟨-, -, hmethod⟩, -, hpayload⟩ := Node.fields_of_reply hreply
    refine ⟨result, s, hpre.subset (List.mem_cons_of_mem _ List.mem_cons_self), ?_⟩
    rw [MessageBody.payloadBytes, hpayload, Option.getD_some, hmethod]
    exact (hsettled.answered hpre).read_write

end Requests

private theorem Response.ofWritten_ne_badRequest (result : Except StorageError Unit) (method : Method) (e : RequestError) :
    ofWritten result ≠ badRequest method e := by
  intro h
  cases method with
  | list => cases result <;> cases h
  | set =>
    cases result with
    | ok _ => cases h
    | error e' =>
      have htext : "Failed to set secret: " ++ e'.message = "Bad request to set secret: " ++ e.message :=
        Option.some.inj (congrArg error? h)
      have hhead := congrArg (fun text : String => text.toList.head?) htext
      simp only [String.toList_append] at hhead
      cases hhead

/-! ### Writes that are signed by their owner -/

/-- A request with the owner's signature of the write stands for a write that is signed by its owner. -/
private theorem SetRequest.isAuthorised_toWrite {r : SetRequest} {owner : SigningKey}
    (hsigned : (WriteEnvelope.ofWrite ⟨owner.address, r.slot, r.version⟩ ⟨r.expiration, r.payload⟩).sign owner =
      .ok r.signature)
    (hkey : owner.Recovers (WriteEnvelope.ofWrite ⟨owner.address, r.slot, r.version⟩ ⟨r.expiration, r.payload⟩).signingBytes) :
    (r.toWrite owner.address).isAuthorised = true :=
  SecretWrite.isAuthorised_iff.2 (SigningKey.recover_of_sign hsigned hkey)

/-- The body with a request as its payload is received as it is sent. -/
private theorem SetRequest.decode_encode (r : SetRequest) (signature : String) (b : MessageBody) :
    Message.decode (Message.encode ⟨signature, b.withPayload r.toJson⟩) = .ok ⟨signature, b.withPayload r.toJson⟩ := by
  apply Message.decode_encode_of_kept
  intro p hp
  cases hp
  exact ⟨Json.isRaw_write r.sound_toJson, r.write_toJson_ne_nullText⟩

/-- The way of a write that its owner has signed. The request is sent in a message whose method is `secrets_set` and whose
sender is the owner, and it is handled in a scope that is not cancelled, with an allowlist that admits the owner (the states
with `live` are kept). The message is received, and nothing goes to the storage but this very write, once; it has gone there
as soon as the exchange has been polled. If the storage is a store, it says what it says to a put. What is sent in answer
tells what the storage has said, and is not that the request is bad. A store accepts the write if it is within the limits and
newer than what its place holds, and refuses it for one of these reasons otherwise. -/
theorem Node.write_honoured (n : Node) (owner : SigningKey) (r : SetRequest) (signature gateway : String) (b : MessageBody)
    (scope : Scope) (world : World) (moves : List (Move World)) (live : World → Prop)
    (hsigned : (WriteEnvelope.ofWrite ⟨owner.address, r.slot, r.version⟩ ⟨r.expiration, r.payload⟩).sign owner =
      .ok r.signature)
    (hkey : owner.Recovers (WriteEnvelope.ofWrite ⟨owner.address, r.slot, r.version⟩ ⟨r.expiration, r.payload⟩).signingBytes)
    (hmethod : b.method = "secrets_set") (hsender : Address.parse b.sender = .ok owner.address) (hstart : live world)
    (hlive : ∀ w, live w → scope.isCancelled w.timeline.moment = false)
    (hallow : ∀ w, live w → w.station.allowlist.allows owner.address = true)
    (hpoll : ∀ call begun w, live w → live (w.poll scope.root begun call).1)
    (hstir : ∀ change, .stir change ∈ moves → ∀ w, live w → live (change w)) :
    let write := r.toWrite owner.address
    (∃ m, Message.decode (Message.encode ⟨signature, b.withPayload r.toJson⟩) = .ok m ∧
      let c := n.course (World.collaborators scope) ⟨gateway, m⟩ world moves
      (c.storings = [] ∨ c.storings = [.put write]) ∧
      (.wake ∈ moves → c.storings = [.put write]) ∧
      (∀ look ∈ c.looks, look.call.isStoring = true → ∀ store clock, look.before.storage = .memory store clock →
        look = ⟨.put write, look.isFirst, look.before, look.after, some ((store.put clock write).map fun _ => ())⟩) ∧
      ∀ look ∈ c.looks, ∀ out, look.call = .send out → ∃ result s, ⟨.put write, result, s⟩ ∈ c.told ∧
        Response.read out.message.body.method out.message.body.payloadBytes = .ok (.ofWritten result) ∧
        ∀ method e, .ofWritten result ≠ Response.badRequest method e) ∧
    ∀ (store : Store) (clock : Int64),
      ((∃ s, store.put clock write = .ok s) ↔ store.constraints.check write.key write.record clock = .ok () ∧
        ∀ held ∈ store.kept? write.place, held.key.version < write.key.version) ∧
      ∀ e, store.put clock write = .error e →
        e ∈ [.slotTooBig, .payloadTooBig, .expired, .expirationTooLong, .versionTooLow] := by
  intro write
  have hauthorised : write.isAuthorised = true := r.isAuthorised_toWrite hsigned hkey
  refine ⟨⟨_, r.decode_encode signature b, ?_⟩, fun store clock => ⟨?_, fun e => Store.mem_of_put_eq_error hauthorised⟩⟩
  · intro c
    have h : Course.Reached n (World.collaborators scope) ⟨gateway, ⟨signature, b.withPayload r.toJson⟩⟩ world moves c :=
      n.reached_course _ _ _ _
    have hd : Delivery.Requests ⟨gateway, ⟨signature, b.withPayload r.toJson⟩⟩ owner.address r := by
      refine ⟨hsender, ?_, r.decode_write⟩
      show Method.ofName? b.method = some .set
      rw [hmethod]
      rfl
    have hanswer : ∀ begun w, live w →
        ((World.collaborators scope).poll (.allow owner.address) begun w).2.answer = some true :=
      fun begun w hw => congrArg some (hallow w hw)
    have hstorings := h.storings_of_requests hd hstart hanswer hpoll hstir
    refine ⟨hstorings, fun hwake => ?_, fun look hlook hstoring store clock hstorage => ?_, fun look hlook out hcall => ?_⟩
    · have hpolled : 0 < moves.countP Move.isWake := List.countP_pos_iff.2 ⟨_, hwake, rfl⟩
      have hdone : c.stage = .ended ∨ 0 < Look.waits c.looks :=
        (n.wakes_le_waits_or_ended _ _ _ _).imp_right (Nat.lt_of_lt_of_le hpolled)
      have hbegun := h.mem_begun_of_requests hd hstart hlive hanswer hpoll hstir hdone
      refine hstorings.resolve_left fun hnone => ?_
      have hmem : Call.put write ∈ c.storings := List.mem_filter.2 ⟨hbegun, rfl⟩
      rw [hnone] at hmem
      cases hmem
    · have hcall := h.call_of_requests hd hstart hanswer hpoll hstir hlook hstoring
      obtain ⟨events, hp⟩ := h.poll_of_mem_looks hlook
      obtain ⟨call, isFirst, before, after, answer⟩ := look
      cases hcall
      have hp : before.poll scope.root (!isFirst) (.put write) = (after, ⟨events, answer⟩) := hp
      have hput := World.answer_poll_put hstorage scope.root (!isFirst) write
      rw [hp] at hput
      cases hput
      rfl
    · obtain ⟨result, s, htold, hread⟩ := h.told_of_requests hd hlook hcall
      exact ⟨result, s, htold, hread, Response.ofWritten_ne_badRequest result⟩
  · simp only [Store.put_eq_ok_iff, hauthorised, true_and, exists_and_left, exists_eq, and_true]

namespace SetRequest.Sample

/-- The signature of the key five. -/
def parts : Signature :=
  ⟨23731924547536030278882365869147547671267431497809312006285778014065770260533,
   655287440469111961546592123396738439426062661958767916350792368394795029716, 0⟩

/-- The last version in the last slot, with the most distant expiration. -/
def request : SetRequest := ⟨9, 18446744073709551615, 604800, [222, 173, 190, 239], parts.toBytes⟩

private def signedDigest : Bytes :=
  [150, 98, 250, 251, 212, 231, 188, 231, 156, 76, 226, 72, 138, 180, 135, 15, 171, 203, 216, 154, 151, 232, 229, 152, 162,
   2, 180, 33, 135, 1, 152, 71]

private theorem signed_request :
    let e := WriteEnvelope.ofWrite ⟨SigningKey.five.address, request.slot, request.version⟩
      ⟨request.expiration, request.payload⟩
    e.sign .five = .ok request.signature ∧ SigningKey.five.Recovers e.signingBytes := by
  rw [SigningKey.address_five]
  intro e
  have hdigest : Keccak.digest e.signingBytes = signedDigest := by
    rw [Keccak.digest_eq]
    decide +kernel
  have hparts : (SigningKey.five.signDigest signedDigest).toOption = some parts := by decide +kernel
  have hsign := SigningKey.signDigest_eq_ok hparts
  exact ⟨SigningKey.sign_eq_ok hdigest hsign,
    SigningKey.recovers_of_signDigest hdigest hsign (by decide) (by decide +kernel)⟩

/-- The write is authorised by the account of the key five. -/
theorem isAuthorised_request : (request.toWrite .five).isAuthorised = true := by
  obtain ⟨hsigned, hkey⟩ := signed_request
  have hauthorised := request.isAuthorised_toWrite hsigned hkey
  rwa [SigningKey.address_five] at hauthorised

def body : MessageBody := ⟨"m-1", "secrets_set", "don-1", Address.five.toHex, none⟩

/-- A world in which the account of the key five is admitted, with an empty store. -/
def world : World := { SecretsGateway.Sample.world with station := { allowlist := .ofList [.five] } }

private def Serves (w : World) : Prop :=
  w.timeline.moment.cancelled = [] ∧ w.station.allowlist.allows .five = true ∧
    ∃ store clock channel, w.storage = .memory store clock ∧ w.link = some channel

private theorem Serves.poll {w : World} (h : Serves w) (root : Root) (begun : Bool) (call : Call) :
    Serves (w.poll root begun call).1 := by
  obtain ⟨hroots, hallowed, store, clock, channel, hstorage, hlink⟩ := h
  have hpolled := World.polled hstorage hlink root begun call
  generalize (w.poll root begun call).1 = w', (w.poll root begun call).2.answer = answer at hpolled
  cases hpolled with
  | put write => exact ⟨hroots, hallowed, _, clock, channel, rfl, hlink⟩
  | sent => exact ⟨hroots, hallowed, store, clock, _, hstorage, rfl⟩
  | _ => exact ⟨hroots, hallowed, store, clock, channel, hstorage, hlink⟩

theorem write_kept :
    (∃ m, Message.decode (Message.encode ⟨"", body.withPayload request.toJson⟩) = .ok m ∧
      (SecretsGateway.Sample.node.course (World.collaborators ⟨0, none⟩) ⟨"gateway", m⟩ world [.wake]).storings =
        [.put (request.toWrite SigningKey.five.address)]) ∧
    ∃ s, (Store.fresh .standard).put 0 (request.toWrite SigningKey.five.address) = .ok s := by
  obtain ⟨hsigned, hkey⟩ := signed_request
  have hsender : Address.parse body.sender = .ok SigningKey.five.address := by
    rw [SigningKey.address_five]
    exact Address.parse_toHex .five
  have hallow : ∀ w, Serves w → w.station.allowlist.allows SigningKey.five.address = true := by
    rw [SigningKey.address_five]
    exact fun w hw => hw.2.1
  have hlive : ∀ w, Serves w → Scope.isCancelled ⟨0, none⟩ w.timeline.moment = false := by
    intro w hw
    rw [Scope.isCancelled, hw.1]
    rfl
  obtain ⟨⟨m, hm, -, hstorings, -⟩, hstore⟩ := Node.write_honoured SecretsGateway.Sample.node .five request "" "gateway" body
    ⟨0, none⟩ world [.wake] Serves hsigned hkey rfl hsender ⟨rfl, by decide, _, _, _, rfl, rfl⟩ hlive hallow
    (fun call begun _ hw => hw.poll 0 begun call) (fun change hchange => by simp at hchange)
  exact ⟨⟨m, hm, hstorings (List.mem_singleton_self _)⟩, ((hstore (.fresh .standard) 0).1).2 ⟨rfl, nofun⟩⟩

end SetRequest.Sample

end SecretsGateway
