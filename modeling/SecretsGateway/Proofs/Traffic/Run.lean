import Mathlib.Data.List.Induction
import Mathlib.Logic.Function.Basic
import SecretsGateway.Proofs.Exchange.Story
import SecretsGateway.Proofs.Store.History
import SecretsGateway.World

/-!
# Many messages at a time

Any number of messages are handled in one world, each under a ticket of its own. Their exchanges take their steps in any
order, and between two steps the allowlist changes, the store is purged, clocks go on, scopes are cancelled, or the receiver
of the channel takes a message (`Happening`). `Node.traffic` is what becomes of a world under a list of such happenings, with a
log of every look at a part of the world.

What a step can do is said once (`Traffic.Step`). Every entry of the log was made by a step in the state that the happenings
before it have led to (`Node.exists_of_log`), and seen from one ticket the traffic is a course of its exchange
(`Traffic.isCourse_traffic`).
-/

namespace SecretsGateway

/-- A message that arrives, and the scope in which it is handled. -/
structure Arrival where
  delivery : Delivery
  scope : Scope

/-- What happens in a world in which messages are handled under tickets. -/
inductive Happening (τ : Type) where
  /-- The exchange of a ticket takes a step. -/
  | step (t : τ)
  | allow (a : Address)
  | remove (a : Address)
  | purge
  /-- The clock of the store shows another time from now on. -/
  | clock (now : Int64)
  /-- Time passes, or roots are cancelled. -/
  | time (change : Timeline → Timeline)
  /-- The receiver takes the oldest message from the channel. -/
  | receive

/-- An entry of the log: a look that the exchange of a ticket has taken, or a purge. -/
inductive Record (τ : Type) where
  | look (t : τ) (seen : Look World)
  | purge (now : Int64)

/-- A world in which messages are handled, how far the exchange of each ticket is, and the past. -/
structure Traffic (τ : Type) where
  world : World
  stage : τ → Stage := fun _ => .arrived
  log : List (Record τ) := []
  /-- What the receiver has taken. -/
  received : List Delivery := []

variable {τ : Type} [DecidableEq τ]

/-- The traffic after a happening. -/
def Traffic.move (n : Node) (arrivals : τ → Arrival) (s : Traffic τ) : Happening τ → Traffic τ
  | .step t =>
    let parts := World.collaborators (arrivals t).scope
    let p := n.step parts.noted (arrivals t).delivery (s.world, []) (s.stage t)
    { s with world := p.state.1, stage := Function.update s.stage t p.stage, log := s.log ++ p.state.2.map (.look t) }
  | .allow a => { s with world.station.allowlist := s.world.station.allowlist.allow a }
  | .remove a => { s with world.station.allowlist := s.world.station.allowlist.remove a }
  | .purge =>
    match s.world.storage with
    | .memory store clock => { s with world.storage := .memory (store.purge clock) clock, log := s.log ++ [.purge clock] }
    | .scripted _ => s
  | .clock now =>
    match s.world.storage with
    | .memory store _ => { s with world.storage := .memory store now }
    | .scripted _ => s
  | .time change => { s with world.timeline := change s.world.timeline }
  | .receive =>
    match s.world.link with
    | some channel =>
      { s with world.link := some channel.receive.2, received := s.received ++ channel.receive.1.toList }
    | none => s

/-- What becomes of a world, and of the messages that arrive, under some happenings. -/
def Node.traffic (n : Node) (arrivals : τ → Arrival) (w : World) (hs : List (Happening τ)) : Traffic τ :=
  hs.foldl (Traffic.move n arrivals) { world := w }

/-- The message that is handed to the channel when a call is answered. -/
def Call.entered? : (call : Call) → Option call.Answer → Option Delivery
  | .send out, some (.ok ()) => some out
  | _, _ => none

/-- The message that was handed to the channel by a look. -/
def Look.entered? {σ : Type} (look : Look σ) : Option Delivery := look.call.entered? look.answer

theorem Look.eq_of_entered? {σ : Type} {look : Look σ} {out : Delivery} (h : look.entered? = some out) :
    look = ⟨.send out, look.isFirst, look.before, look.after, some (.ok ())⟩ := by
  obtain ⟨call, isFirst, before, after, answer⟩ := look
  cases call with
  | send out' =>
    rcases answer with _ | (_ | _)
    · cases h
    · cases h
    · cases h
      rfl
  | _ => cases h

/-- The use of a store that a look has made. -/
def Look.use? (look : Look World) : Option Use :=
  match look.call, look.before.storage with
  | .list owner, .memory _ clock => some ⟨clock, .list owner⟩
  | .put write, .memory _ clock => some ⟨clock, .put write⟩
  | _, _ => none

namespace Record

/-- The look that a ticket has taken. -/
def of? (t : τ) : Record τ → Option (Look World)
  | .look t' seen => if t' = t then some seen else none
  | .purge _ => none

private theorem eq_of_of? {t : τ} {r : Record τ} {seen : Look World} (h : r.of? t = some seen) : r = .look t seen := by
  cases r with
  | purge now => cases h
  | look t' seen' =>
    by_cases ht : t' = t
    · rw [of?, if_pos ht] at h
      rw [ht, Option.some.inj h]
    · rw [of?, if_neg ht] at h
      cases h

omit [DecidableEq τ] in
/-- The use of the store, and the ticket that has made it. -/
def use? : Record τ → Option (Option τ × Use)
  | .look t seen => seen.use?.map fun u => (some t, u)
  | .purge now => some (none, ⟨now, .purge⟩)

omit [DecidableEq τ] in
/-- The message that was handed to the channel, and the ticket that it answers. -/
def entered? : Record τ → Option (τ × Delivery)
  | .look t seen => seen.entered?.map fun out => (t, out)
  | .purge _ => none

end Record

namespace Traffic

/-- The looks of a ticket, in order. -/
def looksOf (s : Traffic τ) (t : τ) : List (Look World) := s.log.filterMap (Record.of? t)

/-- What a ticket has been told, in order. -/
def toldTo (s : Traffic τ) (t : τ) : List (Told World) := (s.looksOf t).filterMap Look.told?

/-- What a ticket has handed to the channel, in order. -/
def sentBy (s : Traffic τ) (t : τ) : List Delivery := (s.looksOf t).filterMap Look.entered?

omit [DecidableEq τ] in
/-- All uses of the store, in the order in which they happened. -/
def uses (s : Traffic τ) : List (Option τ × Use) := s.log.filterMap Record.use?

omit [DecidableEq τ] in
/-- All that was handed to the channel, in the order in which it was. -/
def entered (s : Traffic τ) : List (τ × Delivery) := s.log.filterMap Record.entered?

end Traffic

namespace Traffic

variable (n : Node) (arrivals : τ → Arrival) (s : Traffic τ) (t : τ)

/-- What the exchange of a ticket can do in a step. -/
inductive Step : Traffic τ → Prop
  | received : s.stage t = .arrived →
      Step { s with stage := Function.update s.stage t (.after (Node.receive (arrivals t).delivery)) }
  | ended : s.stage t = .ended → Step s
  | cancelled {call : Call} {begun : Bool} : s.stage t = .asking call begun →
      (arrivals t).scope.isCancelled s.world.timeline.moment = true → Step { s with stage := Function.update s.stage t .ended }
  | waited {call : Call} {begun : Bool} {w : World} {events : List Event} : s.stage t = .asking call begun →
      (arrivals t).scope.isCancelled s.world.timeline.moment = false →
      s.world.poll (arrivals t).scope.root begun call = (w, ⟨events, none⟩) →
      Step { s with
        world := w
        stage := Function.update s.stage t (.asking call true)
        log := s.log ++ [.look t ⟨call, !begun, s.world, w, none⟩] }
  | answered {call : Call} {begun : Bool} {w : World} {events : List Event} {a : call.Answer} :
      s.stage t = .asking call begun → (arrivals t).scope.isCancelled s.world.timeline.moment = false →
      s.world.poll (arrivals t).scope.root begun call = (w, ⟨events, some a⟩) →
      Step { s with
        world := w
        stage := Function.update s.stage t
          (.after (n.resume (arrivals t).delivery ((World.collaborators (arrivals t).scope).view w) call (some a)))
        log := s.log ++ [.look t ⟨call, !begun, s.world, w, some a⟩] }

theorem step_move : Step n arrivals s t (s.move n arrivals (.step t)) := by
  let parts := World.collaborators (arrivals t).scope
  let d := (arrivals t).delivery
  have hmove : s.move n arrivals (.step t) =
      { s with
        world := (n.step parts.noted d (s.world, []) (s.stage t)).state.1
        stage := Function.update s.stage t (n.step parts.noted d (s.world, []) (s.stage t)).stage
        log := s.log ++ (n.step parts.noted d (s.world, []) (s.stage t)).state.2.map (.look t) } := rfl
  -- from no notes the step takes the note of its own look, if it has one
  rw [hmove]
  cases hstage : s.stage t with
  | arrived => simpa [Node.step] using Step.received (n := n) hstage
  | ended =>
    have hsame : Function.update s.stage t .ended = s.stage := by
      rw [← hstage, Function.update_eq_self]
    have hended : Step n arrivals s t s := .ended hstage
    simpa [Node.step, hsame] using hended
  | asking call begun =>
    cases hc : (arrivals t).scope.isCancelled s.world.timeline.moment with
    | true =>
      have hc' : (parts.noted.view (s.world, [])).cancelled = true := hc
      rw [Node.step_of_cancelled n d begun hc', Stage.after_resume_none]
      simpa using Step.cancelled (n := n) hstage hc
    | false =>
      have hc' : (parts.noted.view (s.world, [])).cancelled = false := hc
      rcases hp : s.world.poll (arrivals t).scope.root begun call with ⟨w, events, _ | a⟩
      · rw [Node.step_of_none n d begun hc' (Node.poll_noted_of_poll begun [] hp)]
        exact .waited hstage hc hp
      · rw [Node.step_of_some n d begun hc' (Node.poll_noted_of_poll begun [] hp)]
        exact .answered hstage hc hp

/-- A step leaves the world as it is, or it is a look at the call that the exchange has come to. -/
theorem world_move_step : (s.move n arrivals (.step t)).world = s.world ∨
    ∃ call begun, s.stage t = .asking call begun ∧
      (s.move n arrivals (.step t)).world = (s.world.poll (arrivals t).scope.root begun call).1 := by
  have hstep := step_move n arrivals s t
  generalize s.move n arrivals (.step t) = s' at hstep ⊢
  cases hstep with
  | received => exact .inl rfl
  | ended => exact .inl rfl
  | cancelled => exact .inl rfl
  | waited hstage _ hp => exact .inr ⟨_, _, hstage, by rw [hp]⟩
  | answered hstage _ hp => exact .inr ⟨_, _, hstage, by rw [hp]⟩

/-- How an entry of the log comes about. -/
inductive Made : Happening τ → Record τ → Prop
  | purge {store : Store} {now : Int64} : s.world.storage = .memory store now → Made .purge (.purge now)
  | look {t : τ} {call : Call} {begun : Bool} {w : World} {events : List Event} {answer : Option call.Answer} :
      s.stage t = .asking call begun → (arrivals t).scope.isCancelled s.world.timeline.moment = false →
      s.world.poll (arrivals t).scope.root begun call = (w, ⟨events, answer⟩) →
      Made (.step t) (.look t ⟨call, !begun, s.world, w, answer⟩)

private theorem log_move (h : Happening τ) :
    (s.move n arrivals h).log = s.log ∨ ∃ r, (s.move n arrivals h).log = s.log ++ [r] ∧ Made arrivals s h r := by
  cases h with
  | allow a => exact .inl rfl
  | remove a => exact .inl rfl
  | time change => exact .inl rfl
  | clock now =>
    left
    unfold move
    dsimp only
    split <;> rfl
  | receive =>
    left
    unfold move
    dsimp only
    split <;> rfl
  | purge =>
    unfold move
    dsimp only
    split
    · next store now hstorage => exact .inr ⟨_, rfl, .purge hstorage⟩
    · exact .inl rfl
  | step t =>
    have hstep := step_move n arrivals s t
    generalize s.move n arrivals (.step t) = s' at hstep ⊢
    cases hstep with
    | received => exact .inl rfl
    | ended => exact .inl rfl
    | cancelled => exact .inl rfl
    | waited hstage hc hp => exact .inr ⟨_, rfl, .look hstage hc hp⟩
    | answered hstage hc hp => exact .inr ⟨_, rfl, .look hstage hc hp⟩

variable {s t} {call : Call} {begun : Bool} {answer : call.Answer}

theorem move_step_of_arrived (hstage : s.stage t = .arrived) : s.move n arrivals (.step t) =
    { s with stage := Function.update s.stage t (.after (Node.receive (arrivals t).delivery)) } := by
  have hstep := step_move n arrivals s t
  generalize s.move n arrivals (.step t) = s' at hstep ⊢
  cases hstep with
  | received => rfl
  | _ => simp_all

theorem move_step_of_ended (hstage : s.stage t = .ended) : s.move n arrivals (.step t) = s := by
  have hstep := step_move n arrivals s t
  generalize s.move n arrivals (.step t) = s' at hstep ⊢
  cases hstep with
  | ended => rfl
  | _ => simp_all

theorem move_step_of_some {w : World} {events : List Event} (hstage : s.stage t = .asking call begun)
    (hc : (arrivals t).scope.isCancelled s.world.timeline.moment = false)
    (hp : s.world.poll (arrivals t).scope.root begun call = (w, ⟨events, some answer⟩)) :
    s.move n arrivals (.step t) = { s with
      world := w
      stage := Function.update s.stage t
        (.after (n.resume (arrivals t).delivery ((World.collaborators (arrivals t).scope).view w) call (some answer)))
      log := s.log ++ [.look t ⟨call, !begun, s.world, w, some answer⟩] } := by
  have hstep := step_move n arrivals s t
  generalize s.move n arrivals (.step t) = s' at hstep ⊢
  cases hstep with
  | received hstage' => simp [hstage] at hstage'
  | ended hstage' => simp [hstage] at hstage'
  | cancelled _ hc' => simp [hc] at hc'
  | waited hstage' _ hp' =>
    rw [hstage] at hstage'
    cases hstage'
    rw [hp] at hp'
    cases hp'
  | answered hstage' _ hp' =>
    rw [hstage] at hstage'
    cases hstage'
    rw [hp] at hp'
    cases hp'
    rfl

end Traffic

section Run

variable (n : Node) (arrivals : τ → Arrival) (w : World)

theorem Node.traffic_concat (hs : List (Happening τ)) (h : Happening τ) :
    n.traffic arrivals w (hs ++ [h]) = (n.traffic arrivals w hs).move n arrivals h := by
  simp only [traffic, List.foldl_append, List.foldl_cons, List.foldl_nil]

theorem Node.length_log_le (hs : List (Happening τ)) : (n.traffic arrivals w hs).log.length ≤ hs.length := by
  induction hs using List.reverseRecOn with
  | nil => exact Nat.le_refl 0
  | append_singleton hs h ih =>
    rw [n.traffic_concat, List.length_append]
    rcases Traffic.log_move n arrivals (n.traffic arrivals w hs) h with hsame | ⟨r, hgrown, -⟩
    · rw [hsame]
      exact Nat.le_succ_of_le ih
    · rw [hgrown, List.length_append]
      exact Nat.succ_le_succ ih

/-- Every entry of the log was made by one of the happenings, in the state that those before it have led to. -/
theorem Node.exists_of_log {hs : List (Happening τ)} {earlier later : List (Record τ)} {r : Record τ}
    (hlog : (n.traffic arrivals w hs).log = earlier ++ r :: later) :
    ∃ hs₀ h, hs₀ ++ [h] <+: hs ∧ (n.traffic arrivals w hs₀).log = earlier ∧
      Traffic.Made arrivals (n.traffic arrivals w hs₀) h r := by
  -- the log grows at its end, so the entry is the newest one or was there before
  induction hs using List.reverseRecOn generalizing later with
  | nil =>
    have hnil : ([] : List (Record τ)) = earlier ++ r :: later := hlog
    simp at hnil
  | append_singleton hs h ih =>
    rw [n.traffic_concat] at hlog
    rcases Traffic.log_move n arrivals (n.traffic arrivals w hs) h with hsame | ⟨r', hgrown, hmade⟩
    · rw [hsame] at hlog
      obtain ⟨hs₀, h₀, hpre, hfound⟩ := ih hlog
      exact ⟨hs₀, h₀, hpre.trans (List.prefix_append _ _), hfound⟩
    · rw [hgrown] at hlog
      rcases List.eq_nil_or_concat later with rfl | ⟨later, last, rfl⟩
      · obtain ⟨hearlier, hr⟩ := List.append_inj' hlog rfl
        obtain rfl := List.singleton_inj.1 hr
        exact ⟨hs, h, List.prefix_refl _, hearlier, hmade⟩
      · rw [List.concat_eq_append, ← List.cons_append, ← List.append_assoc] at hlog
        obtain ⟨hs₀, h₀, hpre, hfound⟩ := ih (List.append_inj' hlog rfl).1
        exact ⟨hs₀, h₀, hpre.trans (List.prefix_append _ _), hfound⟩

end Run

/-! ### The course of one ticket -/

private theorem Course.Reached.mono {σ : Type} {n : Node} {parts : Collaborators σ} {d : Delivery} {state : σ}
    {moves moves' : List (Move σ)} {c : Course σ} (h : Reached n parts d state moves c) (hsub : moves ⊆ moves') :
    Reached n parts d state moves' c := by
  induction h with
  | start => exact .start
  | stirred _ hm ih => exact .stirred ih (hsub hm)
  | received _ hstage ih => exact .received ih hstage
  | cancelled _ hstage hc ih => exact .cancelled ih hstage hc
  | waited _ hstage hc hp ih => exact .waited ih hstage hc hp
  | answered _ hstage hc hp ih => exact .answered ih hstage hc hp

namespace Traffic

section Course

variable {n : Node} {arrivals : τ → Arrival} {w : World} {t : τ} {s s' : Traffic τ}

private theorem looksOf_append_look (log : List (Record τ)) (t' : τ) (seen : Look World) :
    (log ++ [Record.look t' seen]).filterMap (Record.of? t) = log.filterMap (Record.of? t) ++ if t' = t then [seen] else [] := by
  by_cases h : t' = t <;> simp [Record.of?, h]

theorem sentBy_of_log {t' : τ} {seen : Look World} (hlog : s'.log = s.log ++ [.look t' seen]) :
    s'.sentBy t = s.sentBy t ++ if t' = t then seen.entered?.toList else [] := by
  rw [sentBy, looksOf, hlog, looksOf_append_look, List.filterMap_append, sentBy, looksOf]
  by_cases h : t' = t
  · cases hentered : seen.entered? <;> simp [h, hentered]
  · simp [h]

/-- What is not a step of an exchange leaves it where it is. -/
theorem stage_and_looksOf_move {h : Happening τ} (hother : h ≠ .step t) :
    (s.move n arrivals h).stage t = s.stage t ∧ (s.move n arrivals h).looksOf t = s.looksOf t := by
  cases h with
  | allow a => exact ⟨rfl, rfl⟩
  | remove a => exact ⟨rfl, rfl⟩
  | time change => exact ⟨rfl, rfl⟩
  | clock now =>
    unfold move
    dsimp only
    split <;> exact ⟨rfl, rfl⟩
  | receive =>
    unfold move
    dsimp only
    split <;> exact ⟨rfl, rfl⟩
  | purge =>
    unfold move
    dsimp only
    split
    · exact ⟨rfl, by simp [looksOf, Record.of?]⟩
    · exact ⟨rfl, rfl⟩
  | step t' =>
    have ht : t' ≠ t := fun heq => hother (heq ▸ rfl)
    have hstep := step_move n arrivals s t'
    generalize s.move n arrivals (.step t') = s' at hstep ⊢
    cases hstep with
    | received => exact ⟨Function.update_of_ne ht.symm _ _, rfl⟩
    | ended => exact ⟨rfl, rfl⟩
    | cancelled => exact ⟨Function.update_of_ne ht.symm _ _, rfl⟩
    | waited => exact ⟨Function.update_of_ne ht.symm _ _, by simp [looksOf, Record.of?, ht]⟩
    | answered => exact ⟨Function.update_of_ne ht.symm _ _, by simp [looksOf, Record.of?, ht]⟩

variable (n arrivals w t) in
/-- Seen from a ticket, the traffic is a course that its exchange can take in a world that is changed by everything else. -/
def IsCourse (s : Traffic τ) : Prop :=
  ∃ moves events, Course.Reached n (World.collaborators (arrivals t).scope) (arrivals t).delivery w moves
    ⟨s.world, s.stage t, s.looksOf t, events⟩

private theorem IsCourse.of_reached {moves : List (Move World)} {stage : Stage} {looks : List (Look World)}
    {events : List Event} (h : Course.Reached n (World.collaborators (arrivals t).scope) (arrivals t).delivery w moves
      ⟨s.world, stage, looks, events⟩) (hstage : s.stage t = stage) (hlooks : s.looksOf t = looks) :
    IsCourse n arrivals w t s := by
  subst hstage hlooks
  exact ⟨moves, events, h⟩

private theorem IsCourse.stirred (h : IsCourse n arrivals w t s) (hsame : s'.stage t = s.stage t ∧ s'.looksOf t = s.looksOf t) :
    IsCourse n arrivals w t s' := by
  obtain ⟨moves, events, hreached⟩ := h
  have hmore := hreached.mono (List.subset_cons_self (.stir fun _ => s'.world) moves)
  exact .of_reached (hmore.stirred List.mem_cons_self) hsame.1 hsame.2

private theorem IsCourse.step (h : IsCourse n arrivals w t s) : IsCourse n arrivals w t (s.move n arrivals (.step t)) := by
  obtain ⟨moves, events, hreached⟩ := h
  have hstep := step_move n arrivals s t
  generalize s.move n arrivals (.step t) = s' at hstep ⊢
  cases hstep with
  | ended => exact ⟨moves, events, hreached⟩
  | received hstage => exact .of_reached (hreached.received hstage) (Function.update_self _ _ _) rfl
  | cancelled hstage hc =>
    refine .of_reached (hreached.cancelled hstage hc) ?_ rfl
    rw [Stage.after_resume_none]
    exact Function.update_self _ _ _
  | waited hstage hc hp =>
    refine .of_reached (hreached.waited hstage hc hp) (Function.update_self _ _ _) ?_
    rw [looksOf, looksOf_append_look, if_pos rfl, looksOf]
  | answered hstage hc hp =>
    refine .of_reached (hreached.answered hstage hc hp) (Function.update_self _ _ _) ?_
    rw [looksOf, looksOf_append_look, if_pos rfl, looksOf]

/-- Seen from a ticket, traffic is a course of its exchange. -/
theorem isCourse_traffic (n : Node) (arrivals : τ → Arrival) (w : World) (t : τ) (hs : List (Happening τ)) :
    IsCourse n arrivals w t (n.traffic arrivals w hs) := by
  induction hs using List.reverseRecOn with
  | nil => exact ⟨[], [], .start⟩
  | append_singleton hs h ih =>
    rw [n.traffic_concat]
    by_cases hstep : h = .step t
    · rw [hstep]
      exact ih.step
    · exact ih.stirred (stage_and_looksOf_move hstep)

/-- The story of a ticket that asks for a call has come to this call. -/
theorem story_of_asking {hs : List (Happening τ)} {call : Call} {begun : Bool}
    (hstage : (n.traffic arrivals w hs).stage t = .asking call begun) :
    Story n (World.collaborators (arrivals t).scope) (arrivals t).delivery ((n.traffic arrivals w hs).toldTo t) (some call) := by
  obtain ⟨moves, events, hreached⟩ := isCourse_traffic n arrivals w t hs
  exact (hreached.isTold.of_asking hstage).1

/-- A ticket that has looked at something has been told a story. -/
theorem exists_story (n : Node) (arrivals : τ → Arrival) (w : World) (t : τ) (hs : List (Happening τ)) :
    (n.traffic arrivals w hs).looksOf t = [] ∨
      ∃ next,
        Story n (World.collaborators (arrivals t).scope) (arrivals t).delivery ((n.traffic arrivals w hs).toldTo t) next := by
  obtain ⟨moves, events, hreached⟩ := isCourse_traffic n arrivals w t hs
  exact hreached.isTold.exists_story

end Course

end Traffic

/-- Every look of a ticket was taken in a step, in the state that the happenings before it have led to. -/
theorem Node.exists_of_mem_looksOf (n : Node) (arrivals : τ → Arrival) (w : World) {t : τ} {hs : List (Happening τ)}
    {seen : Look World} (h : seen ∈ (n.traffic arrivals w hs).looksOf t) :
    ∃ hs₀ later begun events, hs₀ ++ [.step t] <+: hs ∧
      (n.traffic arrivals w hs).log = (n.traffic arrivals w hs₀).log ++ .look t seen :: later ∧
      (n.traffic arrivals w hs₀).stage t = .asking seen.call begun ∧ (n.traffic arrivals w hs₀).world = seen.before ∧
      seen.before.poll (arrivals t).scope.root begun seen.call = (seen.after, ⟨events, seen.answer⟩) := by
  obtain ⟨r, hr, hseen⟩ := List.mem_filterMap.1 h
  obtain rfl := Record.eq_of_of? hseen
  obtain ⟨earlier, later, hlog⟩ := List.append_of_mem hr
  obtain ⟨hs₀, happening, hpre, rfl, hmade⟩ := n.exists_of_log arrivals w hlog
  cases hmade with
  | look hstage _ hp => exact ⟨hs₀, later, _, _, hpre, hlog, hstage, rfl, hp⟩

end SecretsGateway
