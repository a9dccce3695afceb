import Mathlib.Data.List.Forall2
import SecretsGateway.Proofs.Exchange.Calls
import SecretsGateway.Proofs.Store.Outline

/-!
# Two exchanges side by side

Two messages ask for the same but for the bytes of a secret, and two worlds show their exchanges the same
(`Collaborators.Mirrors`): only the results of writes, which a store makes with a look at the bytes, are left open. The two
exchanges then go on in step, and as long as the results of their writes agree (`Course.Agree`) they report and send the same
(`Node.mirrored_course`).
-/

namespace SecretsGateway

variable {σ σ' : Type}

/-- The requests differ at most in the bytes of the secret and of its signature. -/
structure SetRequest.SameOutline (r r' : SetRequest) : Prop where
  slot : r.slot = r'.slot
  version : r.version = r'.version
  expiration : r.expiration = r'.expiration

private theorem SetRequest.SameOutline.toWrite {r r' : SetRequest} (h : r.SameOutline r') (a : Address) :
    (r.toWrite a).outline = (r'.toWrite a).outline := by
  simp only [SetRequest.toWrite, SecretWrite.outline, h.slot, h.version, h.expiration]

/-- The messages have the same sender and method and the same ids, and they come from the same gateway. -/
structure Delivery.SameHead (d d' : Delivery) : Prop where
  gateway : d.gateway = d'.gateway
  messageId : d.message.body.messageId = d'.message.body.messageId
  method : d.message.body.method = d'.message.body.method
  donId : d.message.body.donId = d'.message.body.donId
  sender : d.message.body.sender = d'.message.body.sender

/-- Two readings of a payload that ask for the same but for the bytes of a secret and of its signature. -/
inductive Request.Alike : Except RequestError Request → Except RequestError Request → Prop
  | same (reading : Except RequestError Request) : Alike reading reading
  | set {r r' : SetRequest} : r.SameOutline r' → Alike (.ok (.set r)) (.ok (.set r'))

/-- The messages ask for the same but for the bytes of a secret and of its signature. -/
structure Delivery.Alike (d d' : Delivery) : Prop where
  head : d.SameHead d'
  payload (method : Method) : Method.ofName? d.message.body.method = some method →
    Request.Alike (method.decode d.message.body.payloadBytes) (method.decode d'.message.body.payloadBytes)

/-- The calls differ at most in the bytes of a secret and of its signature. -/
inductive Call.Alike : Call → Call → Prop
  | allow (a : Address) : Alike (.allow a) (.allow a)
  | list (owner : Address) : Alike (.list owner) (.list owner)
  | put {u u' : SecretWrite} : u.outline = u'.outline → Alike (.put u) (.put u')
  | send (out : Delivery) : Alike (.send out) (.send out)

/-- The exchanges are equally far. -/
inductive Stage.Alike : Stage → Stage → Prop
  | arrived : Alike .arrived .arrived
  | asking {call call' : Call} (begun : Bool) : call.Alike call' → Alike (.asking call begun) (.asking call' begun)
  | ended : Alike .ended .ended

/-- The turns report the same and lead equally far. -/
structure Turn.Alike (t t' : Turn) : Prop where
  events : t.events = t'.events
  after : Stage.Alike (.after t) (.after t')

private theorem Call.Alike.refl (call : Call) : call.Alike call := by
  cases call with
  | allow a => exact .allow a
  | list owner => exact .list owner
  | put u => exact .put rfl
  | send out => exact .send out

private theorem Turn.Alike.of_call {events : List Event} {call call' : Call} (h : call.Alike call') :
    Turn.Alike ⟨events, some call⟩ ⟨events, some call'⟩ := ⟨rfl, .asking false h⟩

private theorem Turn.Alike.refl (t : Turn) : t.Alike t := by
  obtain ⟨events, next⟩ := t
  cases next with
  | none => exact ⟨rfl, .ended⟩
  | some call => exact .of_call (.refl call)

private theorem Stage.Alike.rank_eq {stage stage' : Stage} (h : stage.Alike stage') : stage.rank = stage'.rank := by
  cases h with
  | arrived | ended => rfl
  | asking begun hcall => cases hcall <;> rfl

namespace Delivery

variable {n : Node} {d d' : Delivery} {v : View}

private theorem SameHead.answer_eq (h : d.SameHead d') (n : Node) (r : Response) (v : View) :
    n.answer d r v = n.answer d' r v := by
  have hreply : n.reply d.message.body r = n.reply d'.message.body r := by
    simp only [Node.reply, MessageBody.withPayload, h.messageId, h.method, h.donId]
  simp only [Node.answer, Node.outgoing, hreply, h.gateway, h.messageId, h.method]

private theorem SameHead.receive_eq (h : d.SameHead d') : Node.receive d = Node.receive d' := by
  simp only [Node.receive, h.sender, h.gateway]

private theorem Alike.serve (h : d.Alike d') (n : Node) (a : Address) (v : View) : (n.serve d a v).Alike (n.serve d' a v) := by
  have hmethod := h.head.method
  simp only [Node.serve, ← hmethod, ← h.head.gateway]
  cases hname : Method.ofName? d.message.body.method with
  | none => exact .refl _
  | some method =>
    dsimp only
    generalize hreading : method.decode d.message.body.payloadBytes = reading,
      hreading' : method.decode d'.message.body.payloadBytes = reading'
    have hpayload := h.payload method hname
    rw [hreading, hreading'] at hpayload
    cases hpayload with
    | same =>
      rcases reading with e | _ | r
      · dsimp only
        rw [h.head.answer_eq]
        exact .refl _
      · exact .refl _
      · exact .refl _
    | set hr => exact .of_call (.put (hr.toWrite a))

/-- What a node does with the result of a write does not depend on the write. -/
private theorem Alike.resume_put (h : d.Alike d') (n : Node) (v : View) (u u' : SecretWrite)
    (answer : Option (Except StorageError Unit)) :
    (n.resume d v (.put u) answer).Alike (n.resume d' v (.put u') answer) := by
  cases answer with
  | none =>
    simp only [Node.resume, h.head.gateway, h.head.messageId, h.head.method]
    exact .refl _
  | some written =>
    simp only [Node.resume, h.head.answer_eq]
    exact .refl _

private theorem Alike.resume (h : d.Alike d') (n : Node) (v : View) (call : Call) (answer : Option call.Answer) :
    (n.resume d v call answer).Alike (n.resume d' v call answer) := by
  have hhead := h.head
  cases call with
  | allow a =>
    rcases answer with _ | _ | _
    · simp only [Node.resume, hhead.gateway]
      exact .refl _
    · simp only [Node.resume, hhead.gateway]
      exact .refl _
    · exact h.serve n a v
  | list owner =>
    cases answer with
    | none =>
      simp only [Node.resume, hhead.gateway, hhead.messageId, hhead.method]
      exact .refl _
    | some rows =>
      simp only [Node.resume, hhead.answer_eq]
      exact .refl _
  | put u => exact h.resume_put n v u u answer
  | send out =>
    rcases answer with _ | _ | _
    all_goals
      simp only [Node.resume, hhead.gateway, hhead.messageId, hhead.donId, hhead.method]
      exact .refl _

end Delivery

section Looks

variable (n : Node) (parts : Collaborators σ) (d : Delivery)

private theorem Node.prefix_looks_step (s : σ) (looks : List (Look σ)) (stage : Stage) :
    looks <+: (n.step parts.noted d (s, looks) stage).state.2 := by
  cases stage with
  | arrived | ended => exact List.prefix_rfl
  | asking call begun =>
    cases hc : (parts.noted.view (s, looks)).cancelled with
    | true => simp [step_of_cancelled n d begun hc]
    | false =>
      rcases hp : parts.poll call begun s with ⟨s', events, _ | a⟩
      · rw [step_of_none n d begun hc (poll_noted_of_poll begun looks hp)]
        exact List.prefix_append _ _
      · rw [step_of_some n d begun hc (poll_noted_of_poll begun looks hp)]
        exact List.prefix_append _ _

private theorem Node.prefix_looks_advance (steps : Nat) (s : σ) (looks : List (Look σ)) (stage : Stage) :
    looks <+: (n.advance parts.noted d steps (s, looks) stage).state.2 := by
  induction steps generalizing s looks stage with
  | zero => exact List.prefix_rfl
  | succ steps ih =>
    have hstep := n.prefix_looks_step parts d s looks stage
    unfold advance
    generalize n.step parts.noted d (s, looks) stage = p at hstep ⊢
    obtain ⟨⟨s', looks'⟩, stage', events, waiting⟩ := p
    cases waiting with
    | true => exact hstep
    | false => exact hstep.trans (ih s' looks' stage')

private theorem Course.prefix_looks_moves (c : Course σ) (moves : List (Move σ)) :
    c.looks <+: (moves.foldl (Course.move n parts d) c).looks := by
  induction moves generalizing c with
  | nil => exact List.prefix_rfl
  | cons m moves ih =>
    refine List.IsPrefix.trans ?_ (ih (c.move n parts d m))
    cases m with
    | wake => exact n.prefix_looks_advance parts d _ _ _ _
    | stir change => exact List.prefix_rfl

end Looks

private theorem Course.sendings_of_looks {c c₁ : Course σ} {look : Look σ} (h : c₁.looks = c.looks ++ [look]) :
    c₁.sendings = c.sendings ++ (look.begun?.bind Call.sent?).toList := by
  rw [sendings, sendings, begun, begun, h, List.filterMap_append, List.filterMap_append]
  cases hbegun : look.begun? with
  | none => simp [hbegun]
  | some call => cases hsent : call.sent? <;> simp [hbegun, hsent]

/-! ### Worlds -/

/-- Parts that show an exchange the same when they are in states that belong together, whatever it calls, but that the results
of two writes of one outline may differ. When these are the same, the states still belong together. -/
structure Collaborators.Mirrors (parts : Collaborators σ) (parts' : Collaborators σ') (R : σ → σ' → Prop) : Prop where
  view {s : σ} {s' : σ'} : R s s' → parts.view s = parts'.view s'
  poll {s : σ} {s' : σ'} {call : Call} (begun : Bool) : R s s' → (∀ u, call ≠ .put u) →
    (parts.poll call begun s).2 = (parts'.poll call begun s').2 ∧ R (parts.poll call begun s).1 (parts'.poll call begun s').1
  put {s : σ} {s' : σ'} {u u' : SecretWrite} (begun : Bool) : R s s' → u.outline = u'.outline →
    let p := parts.poll (.put u) begun s
    let p' := parts'.poll (.put u') begun s'
    p.2.answer.isSome = p'.2.answer.isSome ∧ (p.2.answer = p'.2.answer → p.2.events = p'.2.events ∧ R p.1 p'.1)

/-- What happens around the two exchanges keeps states together that belong together. -/
inductive Move.Alike (R : σ → σ' → Prop) : Move σ → Move σ' → Prop
  | wake : Alike R .wake .wake
  | stir {f : σ → σ} {g : σ' → σ'} : (∀ s s', R s s' → R (f s) (g s')) → Alike R (.stir f) (.stir g)

namespace Course

/-- Whatever writes the two exchanges have been told the results of, these are the same. -/
def Agree (c : Course σ) (c' : Course σ') : Prop :=
  ∀ (u u' : SecretWrite) (result result' : Except StorageError Unit) (s : σ) (s' : σ'),
    ⟨.put u, result, s⟩ ∈ c.told → ⟨.put u', result', s'⟩ ∈ c'.told → result = result'

/-- The exchanges are equally far, and they have reported and sent the same. -/
structure Alike (R : σ → σ' → Prop) (c : Course σ) (c' : Course σ') : Prop where
  state : R c.state c'.state
  stage : c.stage.Alike c'.stage
  events : c.events = c'.events
  sendings : c.sendings = c'.sendings

variable {n : Node} {d d' : Delivery} {parts : Collaborators σ} {parts' : Collaborators σ'} {R : σ → σ' → Prop}
  {c c₁ : Course σ} {c' c₁' : Course σ'}

private theorem Agree.of_prefix (h : c₁.Agree c₁') (hlooks : c.looks <+: c₁.looks) (hlooks' : c'.looks <+: c₁'.looks) :
    c.Agree c' := fun u u' result result' s s' hmem hmem' =>
  h u u' result result' s s' ((hlooks.filterMap _).subset hmem) ((hlooks'.filterMap _).subset hmem')

private theorem Alike.look (h : c.Alike R c') {call call' : Call} (hcall : call.Alike call') (begun : Bool) {s : σ} {s' : σ'}
    (hstate : R s s') (answer : Option call.Answer) (answer' : Option call'.Answer) {stage stage' : Stage}
    (hstage : stage.Alike stage') (events : List Event) :
    Alike R ⟨s, stage, c.looks ++ [⟨call, begun, c.state, s, answer⟩], c.events ++ events⟩
      ⟨s', stage', c'.looks ++ [⟨call', begun, c'.state, s', answer'⟩], c'.events ++ events⟩ := by
  refine ⟨hstate, hstage, congrArg (· ++ events) h.events, ?_⟩
  rw [sendings_of_looks (c := c) rfl, sendings_of_looks (c := c') rfl, h.sendings]
  cases hcall with
  | allow | list | send => rfl
  | put => cases begun <;> rfl

private theorem Alike.turn (h : c.Alike R c') {turn turn' : Turn} (hturn : turn.Alike turn') :
    Alike R ⟨c.state, .after turn, c.looks, c.events ++ turn.events⟩
      ⟨c'.state, .after turn', c'.looks, c'.events ++ turn'.events⟩ := by
  refine ⟨h.state, hturn.after, ?_, h.sendings⟩
  rw [h.events, hturn.events]

private theorem Alike.look_answered (hmirrors : parts.Mirrors parts' R) (h : c.Alike R c') {call call' : Call}
    (hcall : call.Alike call') (begun : Bool) {s : σ} {s' : σ'} (hstate : R s s') (a : call.Answer) (a' : call'.Answer)
    (hturn : (n.resume d (parts'.view s') call (some a)).Alike (n.resume d' (parts'.view s') call' (some a')))
    (events : List Event) :
    let turn := n.resume d (parts.view s) call (some a)
    let turn' := n.resume d' (parts'.view s') call' (some a')
    Alike R ⟨s, .after turn, c.looks ++ [⟨call, begun, c.state, s, some a⟩], c.events ++ (events ++ turn.events)⟩
      ⟨s', .after turn', c'.looks ++ [⟨call', begun, c'.state, s', some a'⟩], c'.events ++ (events ++ turn'.events)⟩ := by
  dsimp only
  rw [hmirrors.view hstate, hturn.events]
  exact h.look hcall begun hstate _ _ hturn.after _

private theorem Alike.step_cancelled (hmirrors : parts.Mirrors parts' R) (hd : d.Alike d') (h : c.Alike R c')
    {call call' : Call} (hcall : call.Alike call') (begun : Bool) (hcancelled : (parts.view c.state).cancelled = true) :
    let p := n.step parts.noted d (c.state, c.looks) (.asking call begun)
    let p' := n.step parts'.noted d' (c'.state, c'.looks) (.asking call' begun)
    p.waiting = p'.waiting ∧ (c.after p).Alike R (c'.after p') := by
  have hview := hmirrors.view h.state
  have hnoted : (parts.noted.view (c.state, c.looks)).cancelled = true := hcancelled
  have hnoted' : (parts'.noted.view (c'.state, c'.looks)).cancelled = true := by
    change (parts'.view c'.state).cancelled = true
    rw [← hview, hcancelled]
  dsimp only
  rw [Node.step_of_cancelled n d begun hnoted, Node.step_of_cancelled n d' begun hnoted']
  refine ⟨rfl, h.turn ?_⟩
  change (n.resume d (parts.view c.state) call none).Alike (n.resume d' (parts'.view c'.state) call' none)
  rw [hview]
  cases hcall with
  | allow | list | send => exact hd.resume n _ _ none
  | put => exact hd.resume_put n _ _ _ none

private theorem Alike.step_same (hmirrors : parts.Mirrors parts' R) (hd : d.Alike d') (h : c.Alike R c') {call : Call}
    (hcall : ∀ u, call ≠ .put u) (begun : Bool) (hcancelled : (parts.view c.state).cancelled = false) :
    let p := n.step parts.noted d (c.state, c.looks) (.asking call begun)
    let p' := n.step parts'.noted d' (c'.state, c'.looks) (.asking call begun)
    p.waiting = p'.waiting ∧ (c.after p).Alike R (c'.after p') := by
  have hview := hmirrors.view h.state
  have hcancelled' : (parts'.view c'.state).cancelled = false := by rw [← hview, hcancelled]
  have hnoted : (parts.noted.view (c.state, c.looks)).cancelled = false := hcancelled
  have hnoted' : (parts'.noted.view (c'.state, c'.looks)).cancelled = false := hcancelled'
  obtain ⟨hreply, hstate⟩ := hmirrors.poll begun h.state hcall
  dsimp only
  rcases hp : parts.poll call begun c.state with ⟨s, events, answer⟩
  rcases hp' : parts'.poll call begun c'.state with ⟨s', events', answer'⟩
  rw [hp, hp'] at hreply hstate
  cases hreply
  cases answer with
  | none =>
    rw [Node.step_of_none n d begun hnoted (Node.poll_noted_of_poll begun c.looks hp),
      Node.step_of_none n d' begun hnoted' (Node.poll_noted_of_poll begun c'.looks hp')]
    exact ⟨rfl, h.look (.refl call) _ hstate none none (.asking true (.refl call)) events⟩
  | some a =>
    rw [Node.step_of_some n d begun hnoted (Node.poll_noted_of_poll begun c.looks hp),
      Node.step_of_some n d' begun hnoted' (Node.poll_noted_of_poll begun c'.looks hp')]
    exact ⟨rfl, h.look_answered hmirrors (.refl call) _ hstate a a (hd.resume n _ call (some a)) events⟩

private theorem Alike.step_put (hmirrors : parts.Mirrors parts' R) (hd : d.Alike d') (h : c.Alike R c') {u u' : SecretWrite}
    (hu : u.outline = u'.outline) (begun : Bool) (hcancelled : (parts.view c.state).cancelled = false) :
    let p := n.step parts.noted d (c.state, c.looks) (.asking (.put u) begun)
    let p' := n.step parts'.noted d' (c'.state, c'.looks) (.asking (.put u') begun)
    p.waiting = p'.waiting ∧ ((c.after p).Agree (c'.after p') → (c.after p).Alike R (c'.after p')) := by
  have hview := hmirrors.view h.state
  have hcancelled' : (parts'.view c'.state).cancelled = false := by rw [← hview, hcancelled]
  have hnoted : (parts.noted.view (c.state, c.looks)).cancelled = false := hcancelled
  have hnoted' : (parts'.noted.view (c'.state, c'.looks)).cancelled = false := hcancelled'
  -- the storages answer at the same time, but the answers are the same only if the exchanges are told the same
  obtain ⟨hsome, hresult⟩ := hmirrors.put begun h.state hu
  dsimp only
  rcases hp : parts.poll (.put u) begun c.state with ⟨s, events, answer⟩
  rcases hp' : parts'.poll (.put u') begun c'.state with ⟨s', events', answer'⟩
  rw [hp, hp'] at hsome hresult
  cases answer with
  | none =>
    cases answer' with
    | some a' => cases hsome
    | none =>
      obtain ⟨hevents, hstate⟩ := hresult rfl
      cases hevents
      rw [Node.step_of_none n d begun hnoted (Node.poll_noted_of_poll begun c.looks hp),
        Node.step_of_none n d' begun hnoted' (Node.poll_noted_of_poll begun c'.looks hp')]
      exact ⟨rfl, fun _ => h.look (.put hu) _ hstate none none (.asking true (.put hu)) events⟩
  | some a =>
    cases answer' with
    | none => cases hsome
    | some a' =>
      rw [Node.step_of_some n d begun hnoted (Node.poll_noted_of_poll begun c.looks hp),
        Node.step_of_some n d' begun hnoted' (Node.poll_noted_of_poll begun c'.looks hp')]
      refine ⟨rfl, fun hagree => ?_⟩
      obtain rfl : a = a' := hagree u u' a a' s s' (by simp [after, told, Look.told?]) (by simp [after, told, Look.told?])
      obtain ⟨hevents, hstate⟩ := hresult rfl
      cases hevents
      exact h.look_answered hmirrors (.put hu) _ hstate a a (hd.resume_put n _ u u' (some a)) events

private theorem Alike.step (hmirrors : parts.Mirrors parts' R) (hd : d.Alike d') (h : c.Alike R c') :
    let p := n.step parts.noted d (c.state, c.looks) c.stage
    let p' := n.step parts'.noted d' (c'.state, c'.looks) c'.stage
    p.waiting = p'.waiting ∧ ((c.after p).Agree (c'.after p') → (c.after p).Alike R (c'.after p')) := by
  have hstage := h.stage
  dsimp only
  generalize c.stage = stage, c'.stage = stage' at hstage
  cases hstage with
  | ended =>
    refine ⟨rfl, fun _ => ⟨h.state, .ended, ?_, h.sendings⟩⟩
    simpa [after, Node.step] using h.events
  | arrived =>
    refine ⟨rfl, fun _ => h.turn ?_⟩
    rw [hd.head.receive_eq]
    exact .refl _
  | @asking call call' begun hcall =>
    cases hcancelled : (parts.view c.state).cancelled with
    | true =>
      exact (h.step_cancelled hmirrors hd hcall begun hcancelled).imp_right fun halike _ => halike
    | false =>
      cases hcall with
      | put hu => exact h.step_put hmirrors hd hu begun hcancelled
      | allow | list | send =>
        exact (h.step_same hmirrors hd (by simp) begun hcancelled).imp_right fun halike _ => halike

private theorem Alike.advance (hmirrors : parts.Mirrors parts' R) (hd : d.Alike d') (steps : Nat) (h : c.Alike R c')
    (hagree : (c.after (n.advance parts.noted d steps (c.state, c.looks) c.stage)).Agree
      (c'.after (n.advance parts'.noted d' steps (c'.state, c'.looks) c'.stage))) :
    (c.after (n.advance parts.noted d steps (c.state, c.looks) c.stage)).Alike R
      (c'.after (n.advance parts'.noted d' steps (c'.state, c'.looks) c'.stage)) := by
  induction steps generalizing c c' with
  | zero => simpa [Node.advance, after] using h
  | succ steps ih =>
    obtain ⟨hwaiting, hstep⟩ := h.step (n := n) hmirrors hd
    unfold Node.advance at hagree ⊢
    generalize n.step parts.noted d (c.state, c.looks) c.stage = p,
      n.step parts'.noted d' (c'.state, c'.looks) c'.stage = p' at hwaiting hstep hagree ⊢
    cases hw : p.waiting with
    | true =>
      rw [hw] at hwaiting
      simp only [hw, ← hwaiting, ↓reduceIte] at hagree ⊢
      exact hstep hagree
    | false =>
      rw [hw] at hwaiting
      simp only [hw, ← hwaiting, Bool.false_eq_true, ↓reduceIte] at hagree ⊢
      -- what has been told so far will also have been told at the end
      have hagreed : (c.after p).Agree (c'.after p') :=
        hagree.of_prefix (n.prefix_looks_advance parts d _ _ _ _) (n.prefix_looks_advance parts' d' _ _ _ _)
      have hrest := ih (hstep hagreed)
      simp only [after, List.append_assoc] at hrest hagree ⊢
      exact hrest hagree

private theorem Alike.move (hmirrors : parts.Mirrors parts' R) (hd : d.Alike d') (h : c.Alike R c') {m : Move σ} {m' : Move σ'}
    (hm : m.Alike R m') (hagree : (c.move n parts d m).Agree (c'.move n parts' d' m')) :
    (c.move n parts d m).Alike R (c'.move n parts' d' m') := by
  cases hm with
  | wake =>
    have hmove : ∀ c' : Course σ', c'.move n parts' d' .wake =
        c'.after (n.advance parts'.noted d' c'.stage.rank (c'.state, c'.looks) c'.stage) := fun _ => rfl
    rw [hmove, ← h.stage.rank_eq] at hagree ⊢
    exact h.advance hmirrors hd c.stage.rank hagree
  | stir hstir => exact ⟨hstir _ _ h.state, h.stage, h.events, h.sendings⟩

private theorem Alike.moves (hmirrors : parts.Mirrors parts' R) (hd : d.Alike d') {ms : List (Move σ)} {ms' : List (Move σ')}
    (hms : List.Forall₂ (Move.Alike R) ms ms') (h : c.Alike R c')
    (hagree : (ms.foldl (Course.move n parts d) c).Agree (ms'.foldl (Course.move n parts' d') c')) :
    (ms.foldl (Course.move n parts d) c).Alike R (ms'.foldl (Course.move n parts' d') c') := by
  induction hms generalizing c c' with
  | nil => exact h
  | cons hm _ ih =>
    refine ih (h.move hmirrors hd hm (hagree.of_prefix ?_ ?_)) hagree
    · exact prefix_looks_moves n parts d _ _
    · exact prefix_looks_moves n parts' d' _ _

end Course

/-- Exchanges whose messages ask for the same but for the bytes of a secret, in worlds that show them the same, report and send
the same, as long as the results of their writes agree. -/
theorem Node.mirrored_course {parts : Collaborators σ} {parts' : Collaborators σ'} {R : σ → σ' → Prop}
    (hmirrors : parts.Mirrors parts' R) (n : Node) {d d' : Delivery} (hd : d.Alike d') {state : σ} {state' : σ'}
    (hstate : R state state') {moves : List (Move σ)} {moves' : List (Move σ')}
    (hmoves : List.Forall₂ (Move.Alike R) moves moves')
    (hagree : (n.course parts d state moves).Agree (n.course parts' d' state' moves')) :
    (n.course parts d state moves).Alike R (n.course parts' d' state' moves') :=
  Course.Alike.moves hmirrors hd hmoves ⟨hstate, .arrived, rfl, rfl⟩ hagree

end SecretsGateway
