import SecretsGateway.Proofs.Exchange.Course

/-!
# The story of an exchange

The answers that an exchange has got determine how it goes on: `Story` lists every way in which an exchange can go, from the
sender to the sending. `Course.Reached.isTold` says that a course follows a story, that each call is begun once, and that it
stays behind its story only if its scope was cancelled. `Settled` is the part of a story that makes a response.
-/

namespace SecretsGateway

variable {σ : Type}

/-- An answer to a call, and the parts around the node right after it. -/
structure Told (σ : Type) where
  call : Call
  answer : call.Answer
  after : σ

/-- What a look has told, if it found an answer. -/
def Look.told? (look : Look σ) : Option (Told σ) := look.answer.map fun a => ⟨look.call, a, look.after⟩

/-- The call of a look, if it was begun by it. -/
def Look.begun? (look : Look σ) : Option Call := if look.isFirst then some look.call else none

/-- A look that has told something has found an answer. -/
theorem Look.eq_of_told? {look : Look σ} {u : Told σ} (h : look.told? = some u) :
    look = ⟨u.call, look.isFirst, look.before, u.after, some u.answer⟩ := by
  obtain ⟨call, isFirst, before, after, answer⟩ := look
  cases answer with
  | none => cases h
  | some a =>
    cases h
    rfl

private theorem told?_of_none (call : Call) (b : Bool) (s s' : σ) :
    Look.told? (⟨call, b, s, s', none⟩ : Look σ) = none := rfl

private theorem told?_of_some {call : Call} (b : Bool) (s s' : σ) (a : call.Answer) :
    Look.told? ⟨call, b, s, s', some a⟩ = some ⟨call, a, s'⟩ := rfl

namespace Course

/-- All that an exchange has been told, in order. -/
def told (c : Course σ) : List (Told σ) := c.looks.filterMap Look.told?

/-- The calls that an exchange has begun, in order. -/
def begun (c : Course σ) : List Call := c.looks.filterMap Look.begun?

end Course

/-- A payload that fits the method `set` is a request to keep a secret. -/
private theorem Method.eq_set_of_decode {payload : Bytes} {request : Request} (h : Method.set.decode payload = .ok request) :
    ∃ r, request = .set r := by
  unfold decode at h
  dsimp only at h
  split at h
  · cases h
  · split at h
    · cases h
      exact ⟨_, rfl⟩
    · cases h

/-- What has been told makes the response `r`, and makes it known in a state. -/
inductive Settled (d : Delivery) : List (Told σ) → Response → σ → Prop
  | refused {a : Address} {method : Method} {e : RequestError} {s : σ} :
      Address.parse d.message.body.sender = .ok a → Method.ofName? d.message.body.method = some method →
      method.decode d.message.body.payloadBytes = .error e →
      Settled d [⟨.allow a, true, s⟩] (.badRequest method e) s
  | listed {a : Address} {rows : Except StorageError (List SecretRow)} {s s' : σ} :
      Address.parse d.message.body.sender = .ok a → Method.ofName? d.message.body.method = some .list →
      Settled d [⟨.allow a, true, s⟩, ⟨.list a, rows, s'⟩] (.ofRows rows) s'
  | written {a : Address} {r : SetRequest} {result : Except StorageError Unit} {s s' : σ} :
      Address.parse d.message.body.sender = .ok a → Method.ofName? d.message.body.method = some .set →
      Method.set.decode d.message.body.payloadBytes = .ok (.set r) →
      Settled d [⟨.allow a, true, s⟩, ⟨.put (r.toWrite a), result, s'⟩] (.ofWritten result) s'

/-- What an exchange has been told, and the call that follows from it. -/
inductive Story (n : Node) (parts : Collaborators σ) (d : Delivery) : List (Told σ) → Option Call → Prop
  | invalid {e : AddressError} : Address.parse d.message.body.sender = .error e → Story n parts d [] none
  | admission {a : Address} : Address.parse d.message.body.sender = .ok a → Story n parts d [] (some (.allow a))
  | notAllowed {a : Address} {s : σ} :
      Address.parse d.message.body.sender = .ok a → Story n parts d [⟨.allow a, false, s⟩] none
  | unsupported {a : Address} {s : σ} :
      Address.parse d.message.body.sender = .ok a → Method.ofName? d.message.body.method = none →
      Story n parts d [⟨.allow a, true, s⟩] none
  | listing {a : Address} {s : σ} :
      Address.parse d.message.body.sender = .ok a → Method.ofName? d.message.body.method = some .list →
      Story n parts d [⟨.allow a, true, s⟩] (some (.list a))
  | writing {a : Address} {r : SetRequest} {s : σ} :
      Address.parse d.message.body.sender = .ok a → Method.ofName? d.message.body.method = some .set →
      Method.set.decode d.message.body.payloadBytes = .ok (.set r) →
      Story n parts d [⟨.allow a, true, s⟩] (some (.put (r.toWrite a)))
  | unsent {t : List (Told σ)} {r : Response} {s : σ} {e : NodeError} :
      Settled d t r s → n.outgoing d.message.body r (parts.view s) = .error e → Story n parts d t none
  | sending {t : List (Told σ)} {r : Response} {s : σ} {m : Message} :
      Settled d t r s → n.outgoing d.message.body r (parts.view s) = .ok m →
      Story n parts d t (some (.send ⟨d.gateway, m⟩))
  | sent {t : List (Told σ)} {r : Response} {s s' : σ} {m : Message} {result : Except TransportError Unit} :
      Settled d t r s → n.outgoing d.message.body r (parts.view s) = .ok m →
      Story n parts d (t ++ [⟨.send ⟨d.gateway, m⟩, result, s'⟩]) none

namespace Story

variable {n : Node} {parts : Collaborators σ} {d : Delivery} {t : List (Told σ)}

theorem receive : Story n parts d [] (Node.receive d).next := by
  cases h : Address.parse d.message.body.sender with
  | error e => exact Node.next_receive_of_error h ▸ .invalid h
  | ok a => exact Node.next_receive_of_ok h ▸ .admission h

private theorem answer {r : Response} {s : σ} (h : Settled d t r s) :
    Story n parts d t (n.answer d r (parts.view s)).next := by
  cases hout : n.outgoing d.message.body r (parts.view s) with
  | error e => exact Node.next_answer_of_error hout ▸ .unsent h hout
  | ok m => exact Node.next_answer_of_ok hout ▸ .sending h hout

private theorem serve {a : Address} {s : σ} (h : Address.parse d.message.body.sender = .ok a) :
    Story n parts d [⟨.allow a, true, s⟩] (n.serve d a (parts.view s)).next := by
  cases hname : Method.ofName? d.message.body.method with
  | none => exact Node.next_serve_of_none hname ▸ .unsupported h hname
  | some method =>
    cases hp : method.decode d.message.body.payloadBytes with
    | error e => exact Node.next_serve_of_error hname hp ▸ answer (.refused h hname hp)
    | ok request =>
      cases method with
      | list =>
        cases hp
        exact Node.next_serve_of_list hname rfl ▸ .listing h hname
      | set =>
        obtain ⟨r, rfl⟩ := Method.eq_set_of_decode hp
        exact Node.next_serve_of_set hname hp ▸ .writing h hname hp

/-- A story goes on with the answer to the call that it has come to. -/
theorem tell {call : Call} (h : Story n parts d t (some call)) (a : call.Answer) (s : σ) :
    Story n parts d (t ++ [⟨call, a, s⟩]) (n.resume d (parts.view s) call (some a)).next := by
  cases h with
  | admission hsender =>
    cases a with
    | false => exact .notAllowed hsender
    | true => exact serve hsender
  | listing hsender hname => exact answer (.listed hsender hname)
  | writing hsender hname hp => exact answer (.written hsender hname hp)
  | sending hsettled hout => exact Node.next_resume_send (some a) ▸ .sent hsettled hout

end Story

namespace Course

section

variable (n : Node) (parts : Collaborators σ) (d : Delivery) (state : σ) (moves : List (Move σ)) (c : Course σ)

/-- A course has been told a story, and it has begun the calls of the story once each. -/
inductive IsTold : Prop
  | arrived : c.stage = .arrived → c.looks = [] → IsTold
  | asking {call : Call} {begun : Bool} : c.stage = .asking call begun → Story n parts d c.told (some call) →
      c.begun = c.told.map Told.call ++ (if begun then [call] else []) → IsTold
  | ended : c.stage = .ended → Story n parts d c.told none → c.begun = c.told.map Told.call → IsTold
  /-- The scope was found cancelled when the story had come to a call. -/
  | dropped {call : Call} {begun : Bool} {c' : Course σ} : c.stage = .ended → Reached n parts d state moves c' →
      (parts.view c'.state).cancelled = true → Story n parts d c.told (some call) →
      c.begun = c.told.map Told.call ++ (if begun then [call] else []) → IsTold

end

variable {n : Node} {parts : Collaborators σ} {d : Delivery} {state : σ} {moves : List (Move σ)} {c : Course σ}

theorem told_append_waited (c : Course σ) (call : Call) (b : Bool) (s : σ) (stage : Stage) (events : List Event) :
    told ⟨s, stage, c.looks ++ [⟨call, b, c.state, s, none⟩], events⟩ = c.told := by
  simp only [told, List.filterMap_append, List.filterMap_cons, told?_of_none, List.filterMap_nil, List.append_nil]

theorem told_append_answered (c : Course σ) {call : Call} (b : Bool) (s : σ) (a : call.Answer) (stage : Stage)
    (events : List Event) :
    told ⟨s, stage, c.looks ++ [⟨call, b, c.state, s, some a⟩], events⟩ = c.told ++ [⟨call, a, s⟩] := by
  simp only [told, List.filterMap_append, List.filterMap_cons, told?_of_some, List.filterMap_nil]

private theorem begun_append_look (c : Course σ) (look : Look σ) (s : σ) (stage : Stage) (events : List Event) :
    begun ⟨s, stage, c.looks ++ [look], events⟩ = c.begun ++ (if look.isFirst then [look.call] else []) := by
  cases h : look.isFirst <;> simp [begun, Look.begun?, h]

private theorem IsTold.of_after {turn : Turn} (hstage : c.stage = .after turn)
    (hstory : Story n parts d c.told turn.next) (hbegun : c.begun = c.told.map Told.call) : IsTold n parts d state moves c := by
  unfold Stage.after at hstage
  cases hnext : turn.next with
  | none =>
    rw [hnext] at hstage hstory
    exact .ended hstage hstory hbegun
  | some call =>
    rw [hnext] at hstage hstory
    exact .asking hstage hstory (by simpa using hbegun)

theorem IsTold.of_arrived (h : IsTold n parts d state moves c) (hstage : c.stage = .arrived) : c.looks = [] := by
  cases h with
  | arrived _ hlooks => exact hlooks
  | asking hstage' => simp [hstage] at hstage'
  | ended hstage' => simp [hstage] at hstage'
  | dropped hstage' => simp [hstage] at hstage'

/-- What a course that asks for a call has been told. -/
theorem IsTold.of_asking {call : Call} {begun : Bool} (h : IsTold n parts d state moves c)
    (hstage : c.stage = .asking call begun) :
    Story n parts d c.told (some call) ∧ c.begun = c.told.map Told.call ++ (if begun then [call] else []) := by
  cases h with
  | arrived hstage' => simp [hstage] at hstage'
  | asking hstage' hstory hbegun =>
    rw [hstage] at hstage'
    cases hstage'
    exact ⟨hstory, hbegun⟩
  | ended hstage' => simp [hstage] at hstage'
  | dropped hstage' => simp [hstage] at hstage'

/-- Every course is told a story. -/
theorem Reached.isTold (h : Reached n parts d state moves c) : IsTold n parts d state moves c := by
  -- an answer takes the story on by one call, and a look without an answer only marks the call as begun
  induction h with
  | start => exact .arrived rfl rfl
  | stirred _ _ ih =>
    cases ih with
    | arrived hstage hlooks => exact .arrived hstage hlooks
    | asking hstage hstory hbegun => exact .asking hstage hstory hbegun
    | ended hstage hstory hbegun => exact .ended hstage hstory hbegun
    | dropped hstage h hc hstory hbegun => exact .dropped hstage h hc hstory hbegun
  | @received c _ hstage ih =>
    have hlooks := ih.of_arrived hstage
    refine .of_after rfl ?_ ?_
    · simpa [told, hlooks] using Story.receive
    · simp [told, begun, hlooks]
  | @cancelled c call b h hstage hc ih =>
    obtain ⟨hstory, hbegun⟩ := ih.of_asking hstage
    refine .dropped ?_ h hc hstory hbegun
    exact Stage.after_resume_none n d _ call
  | @waited c call b s' events _ hstage hc hp ih =>
    obtain ⟨hstory, hbegun⟩ := ih.of_asking hstage
    refine .asking rfl ?_ ?_
    · rw [told_append_waited]
      exact hstory
    · rw [begun_append_look, told_append_waited, hbegun]
      cases b <;> simp
  | @answered c call b s' events a _ hstage hc hp ih =>
    obtain ⟨hstory, hbegun⟩ := ih.of_asking hstage
    refine .of_after rfl ?_ ?_
    · rw [told_append_answered]
      exact hstory.tell a s'
    · rw [begun_append_look, told_append_answered, hbegun]
      cases b <;> simp

/-- An exchange that has been told something has been told a story. -/
theorem IsTold.exists_story (h : IsTold n parts d state moves c) : c.looks = [] ∨ ∃ next, Story n parts d c.told next := by
  cases h with
  | arrived _ hlooks => exact .inl hlooks
  | asking _ hstory => exact .inr ⟨_, hstory⟩
  | ended _ hstory => exact .inr ⟨_, hstory⟩
  | dropped _ _ _ hstory => exact .inr ⟨_, hstory⟩

/-- A call is looked at only when the story has come to it. -/
theorem Reached.story_of_mem_looks (h : Reached n parts d state moves c) {look : Look σ} (hlook : look ∈ c.looks) :
    ∃ t, t <+: c.told ∧ Story n parts d t (some look.call) := by
  obtain ⟨c', h', hpre, hstage, -⟩ := h.exists_of_mem_looks hlook
  exact ⟨c'.told, hpre.filterMap _, (h'.isTold.of_asking hstage).1⟩

/-- While a course asks for a call, it has begun this call or not. -/
theorem begun_part_of_asking {call : Call} {begun : Bool}
    (h : c.begun = c.told.map Told.call ++ (if begun then [call] else [])) :
    c.begun <+: c.told.map Told.call ++ (some call).toList := by
  rw [h]
  cases begun with
  | true => exact List.prefix_refl _
  | false => exact (List.prefix_append_right_inj _).2 List.nil_prefix

/-- Nothing has been begun but what has been answered and what the story has come to. -/
theorem IsTold.begun_part_of_story (h : IsTold n parts d state moves c) : c.looks = [] ∨
    ∃ next, Story n parts d c.told next ∧ c.begun <+: c.told.map Told.call ++ next.toList := by
  cases h with
  | arrived _ hlooks => exact .inl hlooks
  | asking _ hstory hbegun => exact .inr ⟨_, hstory, begun_part_of_asking hbegun⟩
  | ended _ hstory hbegun => exact .inr ⟨none, hstory, hbegun ▸ List.prefix_append _ _⟩
  | dropped _ _ _ hstory hbegun => exact .inr ⟨_, hstory, begun_part_of_asking hbegun⟩

/-- Whatever has been answered had been begun. -/
theorem IsTold.told_part_of_begun (h : IsTold n parts d state moves c) : c.told.map Told.call <+: c.begun := by
  cases h with
  | arrived _ hlooks =>
    rw [told, begun, hlooks]
    exact List.prefix_refl _
  | asking _ _ hbegun => exact hbegun ▸ List.prefix_append _ _
  | ended _ _ hbegun => exact hbegun ▸ List.prefix_refl _
  | dropped _ _ _ _ hbegun => exact hbegun ▸ List.prefix_append _ _

/-- Whatever was looked at had been begun. -/
theorem Reached.mem_begun_of_mem_looks (h : Reached n parts d state moves c) {look : Look σ} (hlook : look ∈ c.looks) :
    look.call ∈ c.begun := by
  cases hfirst : look.isFirst with
  | true => exact List.mem_filterMap.2 ⟨look, hlook, by rw [Look.begun?, if_pos hfirst]⟩
  | false =>
    obtain ⟨c', h', hpre, hstage, -⟩ := h.exists_of_mem_looks hlook
    obtain ⟨-, hbegun⟩ := h'.isTold.of_asking hstage
    have hmem : look.call ∈ c'.begun := by
      rw [hbegun, hfirst]
      exact List.mem_append_right _ (List.mem_singleton_self _)
    exact (hpre.filterMap _).subset hmem

end Course

end SecretsGateway
