import SecretsGateway.Proofs.Exchange.Calls
import SecretsGateway.Proofs.World

/-!
# What is reported about a message

A node reports about a message until the message has been answered or dropped, and it says which of the two as its last
word: a turn ends with such an event exactly if no call follows (`Node.tells_resume`). So the log of an exchange is ongoing
as long as the exchange is, and at the end it is finished (`Course.Reached.isLogged`). Whether an event of some wording is in
the log depends only on what the exchange has been told (`Course.Reached.mentions_iff`): whether the sender was admitted,
whether the response is a failure, and whether the transport has taken the answer.
-/

namespace SecretsGateway

variable {σ : Type}

namespace Event

/-- The gateway that an event names, if it is about a message. -/
def gateway? : Event → Option String
  | invalidSender gateway .. | notAllowed gateway _ | cancelledInAdmission gateway _ | handling gateway _
  | unsupportedMethod gateway _ | cancelledInDispatch gateway .. | answeringFailure gateway .. | sent gateway ..
  | notSent gateway _ => some gateway
  | stored .. | allowlistStarted _ | allowlistClosed | nodeStarted .. | nodeStopped _ => none

/-- The event says that a message was dropped. -/
def isDrop : Event → Bool
  | invalidSender .. | notAllowed .. | cancelledInAdmission .. | unsupportedMethod .. | cancelledInDispatch ..
  | notSent .. => true
  | _ => false

/-- The event says that a message was answered or dropped. -/
def isFinal : Event → Bool
  | sent .. => true
  | e => e.isDrop

variable {e : Event}

theorem mem_fields_of_gateway? {gateway : String} (h : e.gateway? = some gateway) : ("gateway_id", gateway) ∈ e.fields := by
  cases e <;> cases h <;> exact List.mem_cons_self

theorem level_of_isDrop (h : e.isDrop = true) : e.level = .error ∨ e.level = .warn := by
  cases e <;> simp_all [isDrop, level]

/-- Nothing but a dropped message is reported as an error. -/
private theorem isDrop_of_level (h : e.level = .error) : e.isDrop = true := by
  cases e <;> simp_all [isDrop, level]

theorem isFinal_of_gateway? (h : e.gateway? = none) : e.isFinal = false := by
  cases e <;> simp_all [gateway?, isDrop, isFinal]

/-- A final event says that an answer was sent or that a message was dropped, and no other event does. -/
theorem isFinal_iff : e.isFinal = true ↔ e.isDrop = true ∨ e.message = "Sent to gateway" := by
  cases e <;> simp [isFinal, isDrop, message]

theorem isFinal_eq_false_iff : e.isFinal = false ↔ e.isDrop = false ∧ e.message ≠ "Sent to gateway" := by
  rw [← Bool.not_eq_true, isFinal_iff, not_or, Bool.not_eq_true]

/-- The log of a message that is still handled. -/
def Ongoing (events : List Event) : Prop := ∀ e ∈ events, e.isFinal = false

/-- The log of a message that has been answered or dropped: the last event says so, and no other does. -/
def Finished (events : List Event) : Prop :=
  ∃ earlier last, events = earlier ++ [last] ∧ Ongoing earlier ∧ last.isFinal = true

/-- Some event has the given wording. -/
def Mentions (m : String) (events : List Event) : Prop := ∃ e ∈ events, e.message = m

theorem ongoing_nil : Ongoing [] := fun _ he => by cases he

theorem ongoing_append {l l' : List Event} : Ongoing (l ++ l') ↔ Ongoing l ∧ Ongoing l' := List.forall_mem_append

theorem ongoing_singleton : Ongoing [e] ↔ e.isFinal = false := List.forall_mem_singleton

theorem Ongoing.not_error {l : List Event} (h : Ongoing l) (he : e ∈ l) : e.isDrop = false ∧ e.level ≠ .error := by
  have hdrop := (isFinal_eq_false_iff.1 (h e he)).1
  refine ⟨hdrop, fun hlevel => ?_⟩
  rw [isDrop_of_level hlevel] at hdrop
  cases hdrop

private theorem Ongoing.finished {l l' : List Event} (h : Ongoing l) (h' : Finished l') : Finished (l ++ l') := by
  obtain ⟨earlier, last, rfl, hearlier, hlast⟩ := h'
  exact ⟨l ++ earlier, last, (List.append_assoc ..).symm, ongoing_append.2 ⟨h, hearlier⟩, hlast⟩

private theorem finished_singleton (h : e.isFinal = true) : Finished [e] := ⟨[], e, rfl, ongoing_nil, h⟩

variable {m : String}

private theorem mentions_append {l l' : List Event} : Mentions m (l ++ l') ↔ Mentions m l ∨ Mentions m l' := by
  simp only [Mentions, List.mem_append, or_and_right, exists_or]

private theorem mentions_singleton : Mentions m [e] ↔ e.message = m := by
  simp only [Mentions, List.mem_singleton, exists_eq_left]

private theorem not_mentions_nil : ¬ Mentions m [] := fun ⟨_, he, _⟩ => by cases he

/-- Only a final event says that an answer was sent. -/
theorem mentions_sent_concat {earlier : List Event} {last : Event} (h : Ongoing earlier) :
    Mentions "Sent to gateway" (earlier ++ [last]) ↔ last.message = "Sent to gateway" := by
  rw [mentions_append, mentions_singleton, or_iff_right]
  rintro ⟨e, he, hm⟩
  exact (isFinal_eq_false_iff.1 (h e he)).2 hm

end Event

open Event

/-- What may be reported about a message. -/
inductive Delivery.Reports (d : Delivery) : Event → Prop
  | invalidSender (reason : String) : Reports d (.invalidSender d.gateway d.message.body.sender reason)
  | notAllowed (a : Address) : Reports d (.notAllowed d.gateway a)
  | cancelledInAdmission (a : Address) : Reports d (.cancelledInAdmission d.gateway a)
  | handling : Reports d (.handling d.gateway d.message.body.method)
  | unsupportedMethod : Reports d (.unsupportedMethod d.gateway d.message.body.method)
  | cancelledInDispatch : Reports d (.cancelledInDispatch d.gateway d.message.body.messageId d.message.body.method)
  | answeringFailure : Reports d (.answeringFailure d.gateway d.message.body.messageId d.message.body.method)
  | sent : Reports d (.sent d.gateway d.message.body.messageId d.message.body.donId d.message.body.method)
  | notSent (reason : String) : Reports d (.notSent d.gateway reason)

namespace Delivery.Reports

variable {d : Delivery} {e : Event}

theorem gateway?_eq (h : d.Reports e) : e.gateway? = some d.gateway := by
  cases h <;> rfl

/-- The report that an answer was sent names the ids and the method of the message. -/
theorem eq_sent (h : d.Reports e) (hm : e.message = "Sent to gateway") :
    e = .sent d.gateway d.message.body.messageId d.message.body.donId d.message.body.method := by
  cases h <;> simp_all [Event.message]

end Delivery.Reports

/-- The reports of a turn are about the message, and they are final exactly if nothing follows. -/
structure Turn.Tells (d : Delivery) (turn : Turn) : Prop where
  about : ∀ e ∈ turn.events, d.Reports e
  ongoing : turn.next ≠ none → Ongoing turn.events
  finished : turn.next = none → Finished turn.events

namespace Turn

variable {d : Delivery} {e : Event} {turn : Turn}

private theorem tells_last (he : d.Reports e) (hfinal : e.isFinal = true) : (last e).Tells d where
  about _ h := List.mem_singleton.1 h ▸ he
  ongoing h := absurd rfl h
  finished _ := finished_singleton hfinal

private theorem tells_call (call : Call) : Tells d ⟨[], some call⟩ where
  about _ h := by cases h
  ongoing _ := ongoing_nil
  finished h := by cases h

private theorem Tells.cons (h : turn.Tells d) (he : d.Reports e) (hfinal : e.isFinal = false) :
    Tells d { turn with events := e :: turn.events } where
  about := List.forall_mem_cons.2 ⟨he, h.about⟩
  ongoing hnext := List.forall_mem_cons.2 ⟨hfinal, h.ongoing hnext⟩
  finished hnext := (ongoing_singleton.2 hfinal).finished (h.finished hnext)

end Turn

namespace Node

variable (n : Node) (d : Delivery) (v : View)

/-! An answer is prepared, with a warning if it is a failure. -/

private theorem events_answer_of_ok {r : Response} {m : Message} (h : n.outgoing d.message.body r v = .ok m) :
    (n.answer d r v).events =
      if r.isSuccess then [] else [.answeringFailure d.gateway d.message.body.messageId d.message.body.method] := by
  simp only [answer, h]

theorem events_answer_of_error {r : Response} {e : NodeError} (h : n.outgoing d.message.body r v = .error e) :
    (n.answer d r v).events =
      (if r.isSuccess then [] else [.answeringFailure d.gateway d.message.body.messageId d.message.body.method]) ++
        [.notSent d.gateway e.text] := by
  simp only [answer, h]

private theorem tells_receive : (receive d).Tells d := by
  unfold receive
  dsimp only
  split
  · exact Turn.tells_call _
  · exact Turn.tells_last (.invalidSender _) rfl

private theorem tells_answer (r : Response) : (n.answer d r v).Tells d := by
  unfold answer
  dsimp only
  cases r.isSuccess with
  | true =>
    split
    · exact Turn.tells_call _
    · exact Turn.tells_last (.notSent _) rfl
  | false =>
    split
    · exact (Turn.tells_call _).cons .answeringFailure rfl
    · exact (Turn.tells_last (.notSent _) rfl).cons .answeringFailure rfl

private theorem tells_serve (a : Address) : (n.serve d a v).Tells d := by
  unfold serve
  dsimp only
  split
  · exact (Turn.tells_last .unsupportedMethod rfl).cons .handling rfl
  · split
    · exact (Turn.tells_call _).cons .handling rfl
    · exact (Turn.tells_call _).cons .handling rfl
    · exact (n.tells_answer d v _).cons .handling rfl

/-- A turn ends with a final event exactly if no call follows. -/
theorem tells_resume (call : Call) (a : Option call.Answer) : (n.resume d v call a).Tells d := by
  rcases call with sender | owner | write | out
  · rcases a with _ | _ | _
    · exact Turn.tells_last (.cancelledInAdmission _) rfl
    · exact Turn.tells_last (.notAllowed _) rfl
    · exact n.tells_serve d v sender
  · cases a with
    | none => exact Turn.tells_last .cancelledInDispatch rfl
    | some rows => exact n.tells_answer d v (.ofRows rows)
  · cases a with
    | none => exact Turn.tells_last .cancelledInDispatch rfl
    | some written => exact n.tells_answer d v (.ofWritten written)
  · rcases a with _ | _ | _
    · exact Turn.tells_last (.notSent _) rfl
    · exact Turn.tells_last (.notSent _) rfl
    · exact Turn.tells_last .sent rfl

/-! Of a message that nothing has been told about, a node reports at most that it was dropped. -/

private theorem isDrop_of_mem_receive {e : Event} (h : e ∈ (receive d).events) : e.isDrop = true := by
  unfold receive at h
  dsimp only at h
  split at h
  · cases h
  · cases List.mem_singleton.1 h
    rfl

private theorem isDrop_of_mem_resume_none {e : Event} (call : Call) (h : e ∈ (n.resume d v call none).events) :
    e.isDrop = true := by
  cases call <;> cases List.mem_singleton.1 h <;> rfl

end Node

/-- The parts around the node report nothing about the message. -/
def Collaborators.Apart (parts : Collaborators σ) : Prop :=
  ∀ call begun s, ∀ e ∈ (parts.poll call begun s).2.events, e.gateway? = none

theorem Collaborators.Apart.of_poll {parts : Collaborators σ} (hapart : parts.Apart) {call : Call} {begun : Bool} {s s' : σ}
    {r : Reply call} (hp : parts.poll call begun s = (s', r)) : ∀ e ∈ r.events, e.gateway? = none := by
  intro e he
  have hcall := hapart call begun s e
  rw [hp] at hcall
  exact hcall he

namespace Course

/-- The log of an exchange is about its message, and it is finished exactly if the exchange has ended. -/
structure IsLogged (d : Delivery) (c : Course σ) : Prop where
  about : ∀ e ∈ c.events, e.gateway? = none ∨ d.Reports e
  ongoing : c.stage ≠ .ended → Ongoing c.events
  finished : c.stage = .ended → Finished c.events

variable {n : Node} {parts : Collaborators σ} {d : Delivery} {state : σ} {moves : List (Move σ)} {c : Course σ}

private theorem IsLogged.turn (h : c.IsLogged d) (hstage : c.stage ≠ .ended) {turn : Turn} (hturn : turn.Tells d)
    {others : List Event} (hothers : ∀ e ∈ others, e.gateway? = none) (s : σ) (looks : List (Look σ)) :
    IsLogged d ⟨s, .after turn, looks, c.events ++ (others ++ turn.events)⟩ := by
  have hongoing : Ongoing (c.events ++ others) :=
    ongoing_append.2 ⟨h.ongoing hstage, fun e he => isFinal_of_gateway? (hothers e he)⟩
  constructor
  · intro e he
    rcases List.mem_append.1 he with he | he
    · exact h.about e he
    · rcases List.mem_append.1 he with he | he
      · exact .inl (hothers e he)
      · exact .inr (hturn.about e he)
  · intro hafter
    rw [← List.append_assoc]
    exact ongoing_append.2 ⟨hongoing, hturn.ongoing fun hnext => hafter (Stage.after_eq_ended_iff.2 hnext)⟩
  · intro hafter
    rw [← List.append_assoc]
    exact hongoing.finished (hturn.finished (Stage.after_eq_ended_iff.1 hafter))

theorem stage_ne_ended {call : Call} {begun : Bool} (h : c.stage = .asking call begun) : c.stage ≠ .ended := by
  rw [h]
  exact Stage.noConfusion

/-- The log is ongoing as long as the exchange is, and at the end it is finished. -/
theorem Reached.isLogged (hapart : parts.Apart) (h : Reached n parts d state moves c) : c.IsLogged d := by
  induction h with
  | start =>
    constructor
    · intro e he
      cases he
    · exact fun _ => ongoing_nil
    · intro h
      cases h
  | stirred _ _ ih => exact ⟨ih.about, ih.ongoing, ih.finished⟩
  | @received c _ hstage ih =>
    have hunended : c.stage ≠ .ended := by simp [hstage]
    exact ih.turn hunended (Node.tells_receive d) (List.forall_mem_nil _) _ _
  | cancelled _ hstage hc ih =>
    exact ih.turn (stage_ne_ended hstage) (n.tells_resume d _ _ none) (List.forall_mem_nil _) _ _
  | waited _ hstage _ hp ih =>
    have hevents := hapart.of_poll hp
    constructor
    · intro e he
      rcases List.mem_append.1 he with he | he
      · exact ih.about e he
      · exact .inl (hevents e he)
    · intro _
      exact ongoing_append.2 ⟨ih.ongoing (stage_ne_ended hstage), fun e he => isFinal_of_gateway? (hevents e he)⟩
    · intro h
      cases h
  | answered _ hstage _ hp ih =>
    exact ih.turn (stage_ne_ended hstage) (n.tells_resume d _ _ _) (hapart.of_poll hp) _ _

/-- Whether an event of some wording is in the log depends on what the exchange has been told. It is enough to look at the
answer to a call at which a story has come. -/
theorem Reached.mentions_iff {m : String} {p : List (Told σ) → Prop}
    (hm : ∀ e : Event, e.message = m → e.gateway? ≠ none ∧ e.isDrop = false) (hnil : ¬ p [])
    (htell : ∀ t call a s, Story n parts d t (some call) →
      (p (t ++ [⟨call, a, s⟩]) ↔ p t ∨ Mentions m (n.resume d (parts.view s) call (some a)).events))
    (hapart : parts.Apart) (h : Reached n parts d state moves c) : Mentions m c.events ↔ p c.told := by
  have hdrop : ∀ events : List Event, (∀ e ∈ events, e.isDrop = true) → ¬ Mentions m events := by
    rintro events hdrop ⟨e, he, hsays⟩
    have hkept := (hm e hsays).2
    rw [hdrop e he] at hkept
    cases hkept
  have hothers : ∀ {call begun s s' events} {a : Option (Call.Answer call)},
      parts.poll call begun s = (s', ⟨events, a⟩) → ¬ Mentions m events := by
    rintro call begun s s' events a hp ⟨e, he, hsays⟩
    exact (hm e hsays).1 (hapart.of_poll hp e he)
  -- a step that is no answer neither tells anything nor mentions `m`
  induction h with
  | start => exact iff_of_false not_mentions_nil hnil
  | stirred _ _ ih => exact ih
  | received _ _ ih =>
    rw [mentions_append, or_iff_left (hdrop _ fun e => Node.isDrop_of_mem_receive d)]
    exact ih
  | cancelled _ _ _ ih =>
    rw [mentions_append, or_iff_left (hdrop _ fun e => n.isDrop_of_mem_resume_none d _ _)]
    exact ih
  | waited _ _ _ hp ih =>
    rw [mentions_append, or_iff_left (hothers hp), told_append_waited]
    exact ih
  | answered h hstage _ hp ih =>
    obtain ⟨hstory, -⟩ := h.isTold.of_asking hstage
    rw [mentions_append, mentions_append, or_iff_right (hothers hp), told_append_answered, htell _ _ _ _ hstory]
    exact or_congr_left ih

end Course

/-! ### What the story says about the log -/

/-- The response that has been told is a failure. -/
def Delivery.Fails (d : Delivery) (t : List (Told σ)) : Prop :=
  ∃ u r s, u <+: t ∧ Settled d u r s ∧ r.isSuccess = false

section Story

variable {n : Node} {parts : Collaborators σ} {d : Delivery} {t : List (Told σ)} {v : View} {call : Call}

private theorem Node.mentions_failure_answer {r : Response} :
    Mentions "Answering with error payload" (n.answer d r v).events ↔ r.isSuccess = false := by
  cases hout : n.outgoing d.message.body r v with
  | ok m => cases hr : r.isSuccess <;> simp [events_answer_of_ok n d v hout, hr, Mentions, message]
  | error e => cases hr : r.isSuccess <;> simp [events_answer_of_error n d v hout, hr, Mentions, message]

/-- An answer that settles the response is followed by an attempt to send it; only the report on the admission may come
before. -/
theorem Story.resume_of_settled (h : Story n parts d t (some call)) {a : call.Answer} {r : Response} {s s' : σ}
    (hsettled : Settled d (t ++ [⟨call, a, s⟩]) r s') : s' = s ∧
      ∃ earlier, (∀ e ∈ earlier, e = .handling d.gateway d.message.body.method) ∧
        (n.resume d (parts.view s) call (some a)).events = earlier ++ (n.answer d r (parts.view s)).events := by
  cases h with
  | admission =>
    rw [List.nil_append] at hsettled
    cases hsettled with
    | refused _ hname hp =>
      refine ⟨rfl, [.handling d.gateway d.message.body.method], fun e he => List.mem_singleton.1 he, ?_⟩
      simp only [Node.resume, Node.serve, hname, hp, List.singleton_append]
  | listing =>
    rw [List.singleton_append] at hsettled
    cases hsettled with
    | listed => exact ⟨rfl, [], List.forall_mem_nil _, rfl⟩
  | @writing _ r' _ =>
    rw [List.singleton_append] at hsettled
    generalize r'.toWrite _ = write at hsettled
    cases hsettled with
    | written => exact ⟨rfl, [], List.forall_mem_nil _, rfl⟩
  | sending =>
    have hnone := hsettled.filterMap_sent?
    simp [Call.sent?] at hnone

/-- An answer that settles no response is not followed by a warning. -/
private theorem Story.settled_or (h : Story n parts d t (some call)) (a : call.Answer) (s : σ) :
    (∃ r, Settled d (t ++ [⟨call, a, s⟩]) r s) ∨
      ¬ Mentions "Answering with error payload" (n.resume d (parts.view s) call (some a)).events := by
  cases h with
  | admission ha =>
    cases a with
    | false => exact .inr (by simp [Node.resume, Turn.last, Mentions, message])
    | true =>
      cases hname : Method.ofName? d.message.body.method with
      | none => exact .inr (by simp [Node.resume, Node.serve, hname, Mentions, message])
      | some method =>
        rcases hp : method.decode d.message.body.payloadBytes with e | _ | r
        · exact .inl ⟨_, .refused ha hname hp⟩
        · exact .inr (by simp [Node.resume, Node.serve, hname, hp, Mentions, message])
        · exact .inr (by simp [Node.resume, Node.serve, hname, hp, Mentions, message])
  | listing ha hname => exact .inl ⟨_, .listed ha hname⟩
  | writing ha hname hp => exact .inl ⟨_, .written ha hname hp⟩
  | sending =>
    right
    rcases a with e | _
    · simp [Node.resume, Turn.last, Mentions, message]
    · simp [Node.resume, Turn.last, Mentions, message]

private theorem Story.fails_concat (h : Story n parts d t (some call)) (a : call.Answer) (s : σ) :
    d.Fails (t ++ [⟨call, a, s⟩]) ↔
      d.Fails t ∨ Mentions "Answering with error payload" (n.resume d (parts.view s) call (some a)).events := by
  have hwarning : (∃ r s', Settled d (t ++ [⟨call, a, s⟩]) r s' ∧ r.isSuccess = false) ↔
      Mentions "Answering with error payload" (n.resume d (parts.view s) call (some a)).events := by
    have hmentions : ∀ r s', Settled d (t ++ [⟨call, a, s⟩]) r s' →
        (Mentions "Answering with error payload" (n.resume d (parts.view s) call (some a)).events ↔
          r.isSuccess = false) := by
      intro r s' hsettled
      obtain ⟨-, earlier, hearlier, hevents⟩ := h.resume_of_settled hsettled
      rw [hevents, mentions_append, Node.mentions_failure_answer, or_iff_right]
      rintro ⟨e, he, hm⟩
      rw [hearlier e he] at hm
      simp [message] at hm
    constructor
    · rintro ⟨r, s', hsettled, hr⟩
      exact (hmentions r s' hsettled).2 hr
    · intro hm
      rcases h.settled_or a s with ⟨r, hsettled⟩ | hnone
      · exact ⟨r, s, hsettled, (hmentions r s hsettled).1 hm⟩
      · exact absurd hm hnone
  rw [← hwarning]
  -- a part of what has been told is all of it, or was there before
  constructor
  · rintro ⟨u, r, s', hpre, hsettled⟩
    rcases List.prefix_concat_iff.1 hpre with rfl | hpre
    · exact .inr ⟨r, s', hsettled⟩
    · exact .inl ⟨u, r, s', hpre, hsettled⟩
  · rintro (⟨u, r, s', hpre, hsettled⟩ | ⟨r, s', hsettled⟩)
    · exact ⟨u, r, s', hpre.trans (List.prefix_append _ _), hsettled⟩
    · exact ⟨_, r, s', List.prefix_refl _, hsettled⟩

/-! Whether the sender was admitted and whether an answer was sent is read off the answer to one call. -/

private theorem Node.wording_answer {r : Response} {m : String} (h : Mentions m (n.answer d r v).events) :
    m ∈ ["Answering with error payload", "Failed to send response to gateway"] := by
  obtain ⟨e, he, rfl⟩ := h
  have hwarning : ∀ b : Bool, e ∈ (if b then [] else
      [Event.answeringFailure d.gateway d.message.body.messageId d.message.body.method]) →
      e.message ∈ ["Answering with error payload", "Failed to send response to gateway"] := by
    intro b hb
    cases b with
    | true => cases hb
    | false =>
      obtain rfl := List.mem_singleton.1 hb
      exact List.mem_cons_self
  cases hout : n.outgoing d.message.body r v with
  | ok m =>
    rw [n.events_answer_of_ok d v hout] at he
    exact hwarning _ he
  | error e' =>
    rw [n.events_answer_of_error d v hout] at he
    rcases List.mem_append.1 he with he | he
    · exact hwarning _ he
    · obtain rfl := List.mem_singleton.1 he
      exact List.mem_cons_of_mem _ List.mem_cons_self

private theorem Node.wording_serve {a : Address} {m : String} (h : Mentions m (n.serve d a v).events) :
    m ∈ ["Handling gateway request", "Unsupported method", "Answering with error payload",
      "Failed to send response to gateway"] := by
  obtain ⟨e, he, rfl⟩ := h
  unfold serve at he
  dsimp only at he
  split at he
  · rcases List.mem_cons.1 he with rfl | he
    · simp [message]
    · obtain rfl := List.mem_singleton.1 he
      simp [message]
  · split at he
    · obtain rfl := List.mem_singleton.1 he
      simp [message]
    · obtain rfl := List.mem_singleton.1 he
      simp [message]
    · rcases List.mem_cons.1 he with rfl | he
      · simp [message]
      · exact List.mem_cons_of_mem _ (List.mem_cons_of_mem _ (wording_answer ⟨e, he, rfl⟩))

private theorem Node.mentions_handling_serve (n : Node) (d : Delivery) (a : Address) (v : View) :
    Mentions "Handling gateway request" (n.serve d a v).events := by
  refine ⟨.handling d.gateway d.message.body.method, ?_, rfl⟩
  unfold serve
  dsimp only
  split
  · exact List.mem_cons_self
  · split <;> exact List.mem_cons_self

private theorem Node.mentions_handling_resume (a : call.Answer) (s : σ) :
    Mentions "Handling gateway request" (n.resume d v call (some a)).events ↔
      ∃ sender, (⟨call, a, s⟩ : Told σ) = ⟨.allow sender, true, s⟩ := by
  rcases call with sender | owner | write | out
  · cases a with
    | false => exact iff_of_false (by simp [resume, Turn.last, Mentions, message]) (by rintro ⟨_, ⟨⟩⟩)
    | true => exact iff_of_true (n.mentions_handling_serve d sender v) ⟨sender, rfl⟩
  · exact iff_of_false (fun h => by simpa using wording_answer h) (by rintro ⟨_, ⟨⟩⟩)
  · exact iff_of_false (fun h => by simpa using wording_answer h) (by rintro ⟨_, ⟨⟩⟩)
  · refine iff_of_false ?_ (by rintro ⟨_, ⟨⟩⟩)
    rcases a with _ | _ <;> simp [resume, Turn.last, Mentions, message]

private theorem Node.mentions_sent_resume (a : call.Answer) (s : σ) :
    Mentions "Sent to gateway" (n.resume d v call (some a)).events ↔
      ∃ out, (⟨call, a, s⟩ : Told σ) = ⟨.send out, .ok (), s⟩ := by
  rcases call with sender | owner | write | out
  · refine iff_of_false ?_ (by rintro ⟨_, ⟨⟩⟩)
    cases a with
    | false => simp [resume, Turn.last, Mentions, message]
    | true => exact fun h => by simpa using wording_serve h
  · exact iff_of_false (fun h => by simpa using wording_answer h) (by rintro ⟨_, ⟨⟩⟩)
  · exact iff_of_false (fun h => by simpa using wording_answer h) (by rintro ⟨_, ⟨⟩⟩)
  · rcases a with _ | _
    · exact iff_of_false (by simp [resume, Turn.last, Mentions, message]) (by rintro ⟨_, ⟨⟩⟩)
    · exact iff_of_true (by simp [resume, Turn.last, Mentions, message]) ⟨out, rfl⟩

end Story

namespace Course.Reached

variable {n : Node} {parts : Collaborators σ} {d : Delivery} {state : σ} {moves : List (Move σ)} {c : Course σ}

theorem mentions_handling (hapart : parts.Apart) (h : Reached n parts d state moves c) :
    Mentions "Handling gateway request" c.events ↔ ∃ a, d.Admitted c.told a := by
  refine h.mentions_iff (p := fun t => ∃ a, d.Admitted t a) ?_ ?_ ?_ hapart
  · intro e he
    cases e <;> simp_all [message, gateway?, isDrop]
  · rintro ⟨a, -, s, hmem⟩
    cases hmem
  · intro t call a s hstory
    rw [Node.mentions_handling_resume a s]
    constructor
    · rintro ⟨b, hb, s', hmem⟩
      rcases List.mem_append.1 hmem with hmem | hmem
      · exact .inl ⟨b, hb, s', hmem⟩
      · right
        cases List.mem_singleton.1 hmem
        exact ⟨b, rfl⟩
    · rintro (⟨b, hb, s', hmem⟩ | ⟨b, htold⟩)
      · exact ⟨b, hb, s', List.mem_append_left _ hmem⟩
      · cases htold
        cases hstory with
        | admission hb => exact ⟨b, hb, s, List.mem_append_right _ (List.mem_singleton_self _)⟩

theorem mentions_failure (hapart : parts.Apart) (h : Reached n parts d state moves c) :
    Mentions "Answering with error payload" c.events ↔ d.Fails c.told := by
  refine h.mentions_iff (p := d.Fails) ?_ ?_ (fun t call a s hstory => hstory.fails_concat a s) hapart
  · intro e he
    cases e <;> simp_all [message, gateway?, isDrop]
  · rintro ⟨u, r, s, hpre, hsettled, -⟩
    rw [List.prefix_nil.1 hpre] at hsettled
    cases hsettled

theorem mentions_sent (hapart : parts.Apart) (h : Reached n parts d state moves c) :
    Mentions "Sent to gateway" c.events ↔ ∃ out s, ⟨.send out, .ok (), s⟩ ∈ c.told := by
  refine h.mentions_iff (p := fun t => ∃ out s, ⟨.send out, .ok (), s⟩ ∈ t) ?_ ?_ ?_ hapart
  · intro e he
    cases e <;> simp_all [message, gateway?, isDrop]
  · rintro ⟨out, s, hmem⟩
    cases hmem
  · intro t call a s _
    rw [Node.mentions_sent_resume a s]
    constructor
    · rintro ⟨out, s', hmem⟩
      rcases List.mem_append.1 hmem with hmem | hmem
      · exact .inl ⟨out, s', hmem⟩
      · right
        cases List.mem_singleton.1 hmem
        exact ⟨out, rfl⟩
    · rintro (⟨out, s', hmem⟩ | ⟨out, htold⟩)
      · exact ⟨out, s', List.mem_append_left _ hmem⟩
      · exact ⟨out, s, List.mem_append_right _ (List.mem_singleton.2 htold.symm)⟩

end Course.Reached

end SecretsGateway
