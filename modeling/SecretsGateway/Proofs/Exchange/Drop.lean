import SecretsGateway.Proofs.Exchange.Log

/-!
# Messages that are dropped because of a cancellation

An exchange may notice at four junctures that its scope is cancelled: when it asks the allowlist, when it waits for the
storage, when its response is known, and when the answer waits to be sent. Whatever has ended without having noticed has come
to the end of its story (`Course.Reached.dropped_or`). A message that is dropped at one of the first two junctures is reported
with a warning and without an error, and one that is dropped later is reported with an error and without a warning
(`Node.warned_iff_of_dropped`).
-/

namespace SecretsGateway

variable {σ : Type}

open Event

/-- Where an exchange may notice that its scope is cancelled. -/
inductive Juncture where
  | admission
  | storage
  /-- The response is known, and nothing has been sent. -/
  | response
  | sending
  deriving DecidableEq

/-- The juncture at which a call is given up. -/
def Call.juncture : Call → Juncture
  | allow _ => .admission
  | list _ | put _ => .storage
  | send _ => .sending

/-- The last word about a message that is dropped; `a` is its sender. -/
def Juncture.report (d : Delivery) (a : Address) : Juncture → Event
  | admission => .cancelledInAdmission d.gateway a
  | storage => .cancelledInDispatch d.gateway d.message.body.messageId d.message.body.method
  | response | sending => .notSent d.gateway "request cancelled"

namespace Juncture

variable (d : Delivery) (a : Address) (j : Juncture)

private theorem isDrop_report : (j.report d a).isDrop = true := by
  cases j <;> rfl

/-- The last word is a warning at the first two junctures, and else an error. -/
private theorem level_report : (j.report d a).level = .warn ↔ j = .admission ∨ j = .storage := by
  cases j <;> simp [report, level]

end Juncture

namespace Course

/-- The next step notices that the scope is cancelled: before it looks at the call, or after the answer to the call has
settled the response. -/
inductive Notices (parts : Collaborators σ) (d : Delivery) (c : Course σ) : Juncture → Prop
  | call {call : Call} {begun : Bool} : c.stage = .asking call begun → (parts.view c.state).cancelled = true →
      Notices parts d c call.juncture
  | response {call : Call} {begun : Bool} {s : σ} {events : List Event} {a : call.Answer} {r : Response} :
      c.stage = .asking call begun → (parts.view c.state).cancelled = false →
      parts.poll call begun c.state = (s, ⟨events, some a⟩) → Settled d (c.told ++ [⟨call, a, s⟩]) r s →
      (parts.view s).cancelled = true → Notices parts d c .response

section

variable (n : Node) (parts : Collaborators σ) (d : Delivery) (state : σ) (moves : List (Move σ))

/-- The message was dropped because its scope was found cancelled. -/
inductive Dropped (j : Juncture) : Course σ → Prop
  | noticed {c : Course σ} : Reached n parts d state moves c → Notices parts d c j →
      Dropped j (c.after (n.step parts.noted d (c.state, c.looks) c.stage))
  /-- The parts around the node change afterwards. -/
  | stirred {c : Course σ} {change : σ → σ} : Dropped j c → .stir change ∈ moves →
      Dropped j { c with state := change c.state }

/-- The scope was not cancelled when the response was known, if it ever was. -/
def Undisturbed (c : Course σ) : Prop := ∀ t r s, t <+: c.told → Settled d t r s → (parts.view s).cancelled = false

end

/-- That the message was dropped is reported with a warning, and nothing is reported as an error. -/
def Warned (c : Course σ) : Prop :=
  (∃ e ∈ c.events, e.isDrop = true ∧ e.level = .warn) ∧ ∀ e ∈ c.events, e.level ≠ .error

end Course

variable {n : Node} {parts : Collaborators σ} {d : Delivery} {state : σ} {moves : List (Move σ)} {c : Course σ}

private theorem Story.exists_sender {t : List (Told σ)} {call : Call} (h : Story n parts d t (some call)) :
    ∃ a, Address.parse d.message.body.sender = .ok a ∧ ∀ b, call = .allow b → b = a := by
  cases h with
  | admission ha =>
    refine ⟨_, ha, fun b hb => ?_⟩
    cases hb
    rfl
  | listing ha => exact ⟨_, ha, fun b hb => by cases hb⟩
  | writing ha => exact ⟨_, ha, fun b hb => by cases hb⟩
  | sending hsettled =>
    obtain ⟨a, ha, -⟩ := hsettled.admitted
    exact ⟨a, ha, fun b hb => by cases hb⟩

private theorem Node.events_resume_none (n : Node) (d : Delivery) (v : View) {call : Call} {a : Address}
    (ha : ∀ b, call = .allow b → b = a) : (n.resume d v call none).events = [call.juncture.report d a] := by
  cases call with
  | allow b => rw [ha b rfl]; rfl
  | _ => rfl

private theorem Node.outgoing_of_cancelled {request : MessageBody} {r : Response} {v : View} (hv : v.cancelled = true) :
    n.outgoing request r v = .error .cancelled := by
  unfold outgoing
  rw [hv]
  rfl

namespace Course

/-- The step that notices the cancellation says so, and this is the last word. -/
private theorem Notices.report {j : Juncture} (hapart : parts.Apart) (h : Reached n parts d state moves c)
    (hnotices : Notices parts d c j) : ∃ a earlier, Address.parse d.message.body.sender = .ok a ∧ Ongoing earlier ∧
      (c.after (n.step parts.noted d (c.state, c.looks) c.stage)).events = earlier ++ [j.report d a] := by
  cases hnotices with
  | @call call begun hstage hc =>
    have hongoing := (h.isLogged hapart).ongoing (stage_ne_ended hstage)
    obtain ⟨a, ha, hsender⟩ := (h.isTold.of_asking hstage).1.exists_sender
    refine ⟨a, c.events, ha, hongoing, ?_⟩
    have hc' : (parts.noted.view (c.state, c.looks)).cancelled = true := hc
    rw [hstage, Node.step_of_cancelled n d begun hc', after, n.events_resume_none d _ hsender]
  | @response call begun s others answer r hstage hc hp hsettled hcancelled =>
    have hongoing := (h.isLogged hapart).ongoing (stage_ne_ended hstage)
    obtain ⟨hstory, -⟩ := h.isTold.of_asking hstage
    obtain ⟨a, ha, -⟩ := hstory.exists_sender
    obtain ⟨-, handling, hhandling, hevents⟩ := hstory.resume_of_settled hsettled
    -- what is reported before the last word: by the called part, of the handling, and that the response is a failure
    have hothers : Ongoing others := fun e he => isFinal_of_gateway? (hapart.of_poll hp e he)
    have hbefore : Ongoing handling := fun e he => by
      rw [hhandling e he]
      rfl
    have hwarning : ∀ b : Bool, Ongoing (if b then [] else
        [Event.answeringFailure d.gateway d.message.body.messageId d.message.body.method]) := by
      intro b
      cases b with
      | true => exact ongoing_nil
      | false => exact ongoing_singleton.2 rfl
    have hanswer := n.events_answer_of_error d (parts.view s) (r := r) (Node.outgoing_of_cancelled hcancelled)
    have hc' : (parts.noted.view (c.state, c.looks)).cancelled = false := hc
    have hearlier := ongoing_append.2 ⟨hothers, ongoing_append.2 ⟨hbefore, hwarning r.isSuccess⟩⟩
    refine ⟨a, _, ha, ongoing_append.2 ⟨hongoing, hearlier⟩, ?_⟩
    rw [hstage, Node.step_of_some n d begun hc' (Node.poll_noted_of_poll begun c.looks hp)]
    change c.events ++ (others ++ (n.resume d (parts.view s) call (some answer)).events) = _
    rw [hevents, hanswer]
    simp only [List.append_assoc]
    rfl

private theorem Dropped.report {j : Juncture} (hapart : parts.Apart) (h : Dropped n parts d state moves j c) :
    ∃ a earlier, Address.parse d.message.body.sender = .ok a ∧ Ongoing earlier ∧ c.events = earlier ++ [j.report d a] := by
  induction h with
  | noticed h hnotices => exact hnotices.report hapart h
  | stirred _ _ ih => exact ih

private theorem Dropped.reached {j : Juncture} (h : Dropped n parts d state moves j c) : Reached n parts d state moves c := by
  induction h with
  | noticed h _ => exact h.step
  | stirred _ hm ih => exact .stirred ih hm

private theorem Dropped.stage_eq {j : Juncture} (hapart : parts.Apart) (h : Dropped n parts d state moves j c) :
    c.stage = .ended := by
  refine Decidable.byContradiction fun hstage => ?_
  obtain ⟨a, earlier, -, -, hevents⟩ := h.report hapart
  have hongoing := (h.reached.isLogged hapart).ongoing hstage
  rw [hevents] at hongoing
  have hlast := (isFinal_eq_false_iff.1 (ongoing_singleton.1 (ongoing_append.1 hongoing).2)).1
  rw [j.isDrop_report d a] at hlast
  cases hlast

/-- Only the last word decides whether a dropped message is reported with a warning and without an error. -/
private theorem warned_iff_of_ongoing {earlier : List Event} {last : Event} (h : Ongoing earlier)
    (hevents : c.events = earlier ++ [last]) (hdrop : last.isDrop = true) : c.Warned ↔ last.level = .warn := by
  rw [Warned, hevents]
  constructor
  · rintro ⟨⟨e, he, hdrop', hlevel⟩, -⟩
    rcases List.mem_append.1 he with he | he
    · rw [(h.not_error he).1] at hdrop'
      cases hdrop'
    · obtain rfl := List.mem_singleton.1 he
      exact hlevel
  · intro hlevel
    refine ⟨⟨last, List.mem_append_right _ (List.mem_singleton_self _), hdrop, hlevel⟩, fun e he => ?_⟩
    rcases List.mem_append.1 he with he | he
    · exact (h.not_error he).2
    · obtain rfl := List.mem_singleton.1 he
      rw [hlevel]
      exact Level.noConfusion

private theorem Undisturbed.of_told_eq {c' : Course σ} (h : Undisturbed parts d c) (htold : c'.told = c.told) :
    Undisturbed parts d c' := fun t r s hpre => h t r s (htold ▸ hpre)

/-- An exchange was dropped because its scope was found cancelled, or it is undisturbed so far; if it has ended undisturbed,
then it has come to the end of its story. -/
theorem Reached.dropped_or (hapart : parts.Apart) (h : Reached n parts d state moves c) :
    (∃ j, Dropped n parts d state moves j c) ∨
      (Undisturbed parts d c ∧ (c.stage = .ended → Story n parts d c.told none)) := by
  have hgoes : ∀ {c : Course σ}, c.stage ≠ .ended → (∃ j, Dropped n parts d state moves j c) ∨
      (Undisturbed parts d c ∧ (c.stage = .ended → Story n parts d c.told none)) → Undisturbed parts d c := by
    rintro c hstage (⟨j, hdropped⟩ | ⟨hundisturbed, -⟩)
    · exact absurd (hdropped.stage_eq hapart) hstage
    · exact hundisturbed
  -- a step that notices the cancellation drops the message, and any other leaves the exchange undisturbed
  induction h with
  | start =>
    refine .inr ⟨?_, fun hstage => by cases hstage⟩
    intro t r s hpre hsettled
    rw [List.prefix_nil.1 hpre] at hsettled
    cases hsettled
  | stirred _ hm ih => exact ih.imp_left fun ⟨j, hdropped⟩ => ⟨j, .stirred hdropped hm⟩
  | @received c h hstage ih =>
    have hunended : c.stage ≠ .ended := by simp [hstage]
    refine .inr ⟨(hgoes hunended ih).of_told_eq rfl, fun hend => ?_⟩
    have hlooks := h.isTold.of_arrived hstage
    have hstory : Story n parts d [] (Node.receive d).next := .receive
    rw [Stage.after_eq_ended_iff.1 hend] at hstory
    simpa only [told, hlooks, List.filterMap_nil] using hstory
  | @cancelled c call begun h hstage hc _ =>
    have hc' : (parts.noted.view (c.state, c.looks)).cancelled = true := hc
    have hdropped := Dropped.noticed h (.call hstage hc)
    rw [hstage, Node.step_of_cancelled n d begun hc'] at hdropped
    exact .inl ⟨_, hdropped⟩
  | waited _ hstage _ _ ih =>
    refine .inr ⟨(hgoes (stage_ne_ended hstage) ih).of_told_eq (told_append_waited ..), fun hend => by cases hend⟩
  | @answered c call begun s others a h hstage hc hp ih =>
    by_cases hnoticed : ∃ r, Settled d (c.told ++ [⟨call, a, s⟩]) r s ∧ (parts.view s).cancelled = true
    · obtain ⟨r, hsettled, hcancelled⟩ := hnoticed
      have hc' : (parts.noted.view (c.state, c.looks)).cancelled = false := hc
      have hdropped := Dropped.noticed h (.response hstage hc hp hsettled hcancelled)
      rw [hstage, Node.step_of_some n d begun hc' (Node.poll_noted_of_poll begun c.looks hp)] at hdropped
      exact .inl ⟨_, hdropped⟩
    · obtain ⟨hstory, -⟩ := h.isTold.of_asking hstage
      right
      constructor
      · intro t r s' hpre hsettled
        rw [told_append_answered] at hpre
        rcases List.prefix_concat_iff.1 hpre with rfl | hpre
        · obtain ⟨rfl, -⟩ := hstory.resume_of_settled hsettled
          exact Bool.not_eq_true _ ▸ fun hcancelled => hnoticed ⟨r, hsettled, hcancelled⟩
        · exact hgoes (stage_ne_ended hstage) ih t r s' hpre hsettled
      · intro hend
        have htold := hstory.tell a s
        rw [Stage.after_eq_ended_iff.1 hend] at htold
        rw [told_append_answered]
        exact htold

end Course

/-- What is reported about a message whose scope is cancelled depends on the juncture at which this is noticed. An exchange
that has ended was dropped at one of the four junctures, or it has come to the end of its story and its scope was not
cancelled when the response was known. A message that was dropped is reported as such in the last event only, and there is a
warning and no error if and only if the cancellation was noticed in the admission or while the storage was at work. -/
theorem Node.warned_iff_of_dropped (n : Node) (parts : Collaborators σ) (d : Delivery) (state : σ) (moves : List (Move σ))
    (hapart : parts.Apart) :
    let c := n.course parts d state moves
    (c.stage = .ended → (∃ j, Course.Dropped n parts d state moves j c) ∨
      (Story n parts d c.told none ∧
        ∀ t r s, t <+: c.told → Settled d t r s → (parts.view s).cancelled = false)) ∧
    ∀ j, Course.Dropped n parts d state moves j c →
      (c.Warned ↔ j = .admission ∨ j = .storage) ∧
      ∃ a earlier, Address.parse d.message.body.sender = .ok a ∧ c.events = earlier ++ [j.report d a] ∧
        ∀ e ∈ earlier, e.isDrop = false ∧ e.level ≠ .error := by
  intro c
  have h : Course.Reached n parts d state moves c := n.reached_course parts d state moves
  constructor
  · intro hend
    exact (h.dropped_or hapart).imp_right fun ⟨hundisturbed, hstory⟩ => ⟨hstory hend, hundisturbed⟩
  · intro j hdropped
    obtain ⟨a, earlier, ha, hongoing, hevents⟩ := hdropped.report hapart
    refine ⟨?_, a, earlier, ha, hevents, fun e he => hongoing.not_error he⟩
    rw [← Juncture.level_report d a]
    exact Course.warned_iff_of_ongoing hongoing hevents (j.isDrop_report d a)

namespace Node

private def inquiry : Delivery := ⟨"gateway", ⟨"", ⟨"id", "secrets_list", "session", Address.zero.toHex, none⟩⟩⟩

private def inquired (w : World) : Course World := Sample.node.course (World.collaborators ⟨0, none⟩) inquiry w [.wake]

/-- The scope is cancelled before the message arrives. -/
private def early : World := { Sample.world with timeline.moment.cancelled := [0] }

/-- The scope is cancelled when the storage is about to answer. -/
private def late : World := { Sample.world with storage := .scripted { cancelNext := some 0 } }

theorem warned_early :
    ∃ j, Course.Dropped Sample.node (World.collaborators ⟨0, none⟩) inquiry early [.wake] j (inquired early) ∧
    (inquired early).Warned ∧ ((inquired early).Warned ↔ j = .admission ∨ j = .storage) := by
  have hevents : (inquired early).stage = .ended ∧
      (inquired early).events = [.cancelledInAdmission "gateway" .zero] := by
    decide +kernel
  obtain ⟨hend, hdropped⟩ := warned_iff_of_dropped Sample.node (World.collaborators ⟨0, none⟩) inquiry early [.wake]
    (World.apart _)
  rcases hend hevents.1 with ⟨j, hj⟩ | ⟨hstory, -⟩
  · have hwarned : (inquired early).Warned := by
      rw [Course.Warned, hevents.2]
      simp [isDrop, level]
    exact ⟨j, hj, hwarned, (hdropped j hj).1⟩
  · -- nothing has been told, and this is no end of a story, for the sender is an address
    have htold : (inquired early).told = [] := rfl
    change Story _ _ _ (inquired early).told none at hstory
    generalize (inquired early).told = t at hstory htold
    cases hstory with
    | invalid herror => simp [inquiry, Address.parse_toHex] at herror
    | unsent hsettled =>
      rw [htold] at hsettled
      cases hsettled
    | sent => simp at htold
    | _ => cases htold

/-- A request that is dropped because its scope was cancelled between the answer of the storage and the sending is reported
as an error. -/
theorem not_warned_late :
    (∃ j, Course.Dropped Sample.node (World.collaborators ⟨0, none⟩) inquiry late [.wake] j (inquired late)) ∧
    (inquired late).events = [.handling "gateway" "secrets_list", .notSent "gateway" "request cancelled"] ∧
    ¬ (inquired late).Warned := by
  have hevents : (inquired late).events =
      [.handling "gateway" "secrets_list", .notSent "gateway" "request cancelled"] := by
    decide +kernel
  refine ⟨?_, hevents, ?_⟩
  · have hreached := Sample.node.reached_course (World.collaborators ⟨0, none⟩) inquiry late [.wake]
    rcases hreached.dropped_or (World.apart _) with hdropped | ⟨hfree, -⟩
    · exact hdropped
    · obtain ⟨s, s', htold, hcancelled⟩ : ∃ s s', (inquired late).told =
          [⟨.allow .zero, true, s⟩, ⟨.list .zero, .ok [], s'⟩] ∧
          ((World.collaborators ⟨0, none⟩).view s').cancelled = true := ⟨_, _, rfl, rfl⟩
      have hsettled : Settled inquiry (inquired late).told (.ofRows (.ok [])) s' :=
        htold ▸ .listed (Address.parse_toHex .zero) rfl
      rw [hfree _ _ _ (List.prefix_refl _) hsettled] at hcancelled
      cases hcancelled
  · rintro ⟨-, hquiet⟩
    rw [hevents] at hquiet
    exact hquiet _ (List.mem_cons_of_mem _ List.mem_cons_self) rfl

end Node

end SecretsGateway
