import SecretsGateway.Proofs.Exchange.Report

/-!
# The last word about a message

In a world with a store or a scripted storage, and whatever becomes of the channel, the log of an exchange that has ended
tells the truth: its last event says that an answer was sent if and only if a message has entered the channel, and otherwise
it is the one event that says that the message was dropped (`Node.log_of_course`). That a message has entered the channel is
seen in the queue before and after a look (`Course.Entered`), not in what the transport answers.
-/

namespace SecretsGateway

open Event

/-- The look has put a message at the end of the queue of the channel. -/
def Look.Enters (look : Look World) (out : Delivery) : Prop :=
  ∃ channel channel', look.before.link = some channel ∧ look.after.link = some channel' ∧
    channel'.queue = channel.queue ++ [out]

/-- A message has entered the channel in the course of an exchange. -/
def Course.Entered (c : Course World) (out : Delivery) : Prop := ∃ look ∈ c.looks, look.Enters out

namespace World

variable {w : World} {out : Delivery}

theorem apart (scope : Scope) : (collaborators scope).Apart := by
  intro call begun w e he
  change e ∈ (w.poll scope.root begun call).2.events at he
  cases call with
  | allow _ => cases he
  | list _ =>
    unfold poll at he
    cases hstorage : w.storage <;> rw [hstorage] at he <;> cases he
  | put write =>
    unfold poll at he
    cases hstorage : w.storage with
    | scripted script =>
      rw [hstorage] at he
      cases he
    | memory store clock =>
      rw [hstorage] at he
      dsimp only at he
      cases hput : store.put clock write with
      | error _ =>
        rw [hput] at he
        cases he
      | ok _ =>
        rw [hput] at he
        obtain rfl := List.mem_singleton.1 he
        rfl
  | send _ => cases he

private theorem link_settle {α : Type} (w : World) (p : PendingCall) (answer : α) : (w.settle p answer).1.link = w.link := by
  unfold settle
  split <;> rfl

private theorem link_perform {α : Type} (w : World) (script : Script) (caller : Root) (call : Call) (begun : Bool)
    (answer : α) : (w.perform script caller call begun answer).1.link = w.link := by
  unfold perform
  split
  · split
    · exact link_settle w _ answer
    · rfl
  · exact link_settle _ _ answer

private theorem link_poll {call : Call} (h : call.sent? = none) (root : Root) (begun : Bool) :
    (w.poll root begun call).1.link = w.link := by
  cases call with
  | allow _ => rfl
  | list owner =>
    unfold poll
    split
    · rfl
    · exact link_perform w _ root _ begun _
  | put write =>
    unfold poll
    split
    · dsimp only
      split <;> rfl
    · exact link_perform w _ root _ begun _
  | send _ => cases h

/-- A sending succeeds if and only if the message comes to stand at the end of the queue. -/
private theorem enters_iff_of_send {root : Root} {begun isFirst : Bool} {w' : World} {events : List Event}
    {answer : Option (Except TransportError Unit)} (h : w.poll root begun (.send out) = (w', ⟨events, answer⟩))
    (out' : Delivery) :
    (⟨.send out, isFirst, w, w', answer⟩ : Look World).Enters out' ↔ answer = some (.ok ()) ∧ out' = out := by
  have hlonger : ∀ queue : List Delivery, queue ≠ queue ++ [out'] := fun queue hqueue => by
    simpa using congrArg List.length hqueue
  unfold poll transmit at h
  cases hlink : w.link with
  | none =>
    refine iff_of_false ?_ ?_
    · rintro ⟨_, _, hbefore, -⟩
      rw [hlink] at hbefore
      cases hbefore
    · rw [hlink] at h
      cases h
      simp
  | some channel =>
    rw [hlink] at h
    have hsame : w' = w → ¬ (⟨.send out, isFirst, w, w', answer⟩ : Look World).Enters out' := by
      rintro rfl ⟨_, _, hbefore, hafter, hqueue⟩
      rw [hbefore] at hafter
      cases hafter
      exact hlonger _ hqueue
    -- only a sending that goes through makes the queue longer
    cases hsend : channel.send out with
    | full =>
      simp only [hsend] at h
      cases h
      exact iff_of_false (hsame rfl) (by simp)
    | closed =>
      simp only [hsend] at h
      cases h
      exact iff_of_false (hsame rfl) (by simp)
    | sent channel' =>
      simp only [hsend] at h
      cases h
      have hqueue := (Channel.eq_of_send hsend).1
      constructor
      · rintro ⟨_, _, hbefore, hafter, hqueue'⟩
        rw [hlink] at hbefore
        cases hbefore
        cases hafter
        rw [hqueue] at hqueue'
        exact ⟨rfl, (List.singleton_inj.1 (List.append_cancel_left hqueue')).symm⟩
      · rintro ⟨-, rfl⟩
        exact ⟨channel, channel', hlink, rfl, hqueue⟩

end World

variable {n : Node} {scope : Scope} {d : Delivery} {w : World} {moves : List (Move World)} {c : Course World}

/-- A message has entered the channel if and only if the transport has answered so. -/
private theorem Course.Reached.entered_iff (h : Reached n (World.collaborators scope) d w moves c) :
    (∃ out, c.Entered out) ↔ ∃ out s, ⟨.send out, .ok (), s⟩ ∈ c.told := by
  constructor
  · rintro ⟨out', look, hlook, henters⟩
    obtain ⟨events, hpoll⟩ := h.poll_of_mem_looks hlook
    obtain ⟨call, isFirst, before, after, answer⟩ := look
    change before.poll scope.root (!isFirst) call = (after, ⟨events, answer⟩) at hpoll
    cases hcall : call.sent? with
    | none =>
      -- a call that is no sending leaves the channel alone, so nothing has entered
      obtain ⟨channel, channel', hbefore, hafter, hqueue⟩ := henters
      have hlink : after.link = before.link := by
        have hsame := World.link_poll (w := before) hcall scope.root (!isFirst)
        rw [hpoll] at hsame
        exact hsame
      change before.link = some channel at hbefore
      change after.link = some channel' at hafter
      rw [hlink, hbefore] at hafter
      cases hafter
      simpa using congrArg List.length hqueue
    | some out =>
      cases call with
      | send out =>
        obtain ⟨rfl, rfl⟩ := (World.enters_iff_of_send hpoll out').1 henters
        exact ⟨out', after, List.mem_filterMap.2 ⟨_, hlook, rfl⟩⟩
      | _ => cases hcall
  · rintro ⟨out, s, hmem⟩
    obtain ⟨look, hlook, htold⟩ := List.mem_filterMap.1 hmem
    obtain ⟨events, hpoll⟩ := h.poll_of_mem_looks hlook
    rw [Look.eq_of_told? htold] at hlook hpoll
    change look.before.poll scope.root (!look.isFirst) (.send out) = (s, ⟨events, some (.ok ())⟩) at hpoll
    exact ⟨out, _, hlook, (World.enters_iff_of_send hpoll out).2 ⟨rfl, rfl⟩⟩

/-- Every message gets a truthful last word, whatever the allowlist holds, the storage answers, becomes of the channel, and
whenever the scope is cancelled. As long as its exchange goes on, nothing is said of an answer that was sent or of a message
that was dropped. The last event of an exchange that has ended is the first to say so: that the answer was sent if a message
has entered the channel, and else that the message was dropped. On the way it was said that the message is handled exactly if
its sender was admitted, and that the answer is a failure exactly if the response is. -/
theorem Node.log_of_course (n : Node) (scope : Scope) (d : Delivery) (w : World) (moves : List (Move World)) :
    let c := n.course (World.collaborators scope) d w moves
    let body := d.message.body
    (c.stage ≠ .ended → ∀ e ∈ c.events, e.isDrop = false ∧ e.message ≠ "Sent to gateway") ∧
    (c.stage = .ended → ∃ earlier last, c.events = earlier ++ [last] ∧
      (∀ e ∈ earlier, e.isDrop = false ∧ e.message ≠ "Sent to gateway") ∧
      ((∃ out, c.Entered out) ↔ last.level = .debug ∧ last.message = "Sent to gateway" ∧ last.fields =
        [("gateway_id", d.gateway), ("message_id", body.messageId), ("don_id", body.donId), ("method", body.method)]) ∧
      ((¬ ∃ out, c.Entered out) →
        last.isDrop = true ∧ (last.level = .error ∨ last.level = .warn) ∧ ("gateway_id", d.gateway) ∈ last.fields) ∧
      last.message ≠ "Answering with error payload") ∧
    (Mentions "Handling gateway request" c.events ↔ ∃ a, d.Admitted c.told a) ∧
    (Mentions "Answering with error payload" c.events ↔ d.Fails c.told) := by
  intro c body
  have h : Course.Reached n (World.collaborators scope) d w moves c := n.reached_course _ d w moves
  have hlog := h.isLogged (World.apart scope)
  refine ⟨?_, ?_, h.mentions_handling (World.apart scope), h.mentions_failure (World.apart scope)⟩
  · intro hstage e he
    exact isFinal_eq_false_iff.1 (hlog.ongoing hstage e he)
  · intro hstage
    obtain ⟨earlier, last, hevents, hearlier, hlast⟩ := hlog.finished hstage
    have habout : d.Reports last := by
      have hmem : last ∈ c.events := hevents ▸ List.mem_append_right _ (List.mem_singleton_self last)
      rcases hlog.about last hmem with hother | habout
      · rw [isFinal_of_gateway? hother] at hlast
        cases hlast
      · exact habout
    have hentered : (∃ out, c.Entered out) ↔ last.message = "Sent to gateway" := by
      rw [h.entered_iff, ← h.mentions_sent (World.apart scope), hevents, mentions_sent_concat hearlier]
    refine ⟨earlier, last, hevents, fun e he => isFinal_eq_false_iff.1 (hearlier e he), ?_, ?_, ?_⟩
    · rw [hentered]
      constructor
      · intro hm
        rw [habout.eq_sent hm]
        exact ⟨rfl, rfl, rfl⟩
      · exact fun hsent => hsent.2.1
    · intro hnone
      have hdrop : last.isDrop = true := (isFinal_iff.1 hlast).resolve_right fun hm => hnone (hentered.2 hm)
      exact ⟨hdrop, level_of_isDrop hdrop, mem_fields_of_gateway? habout.gateway?_eq⟩
    · intro hm
      cases last <;> simp_all [message, isFinal, isDrop]

end SecretsGateway
