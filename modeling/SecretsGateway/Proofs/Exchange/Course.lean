import SecretsGateway.Proofs.Exchange.Turn

/-!
# Courses of an exchange

An exchange is polled now and then, and between two polls anything may happen around it: time passes, a root is cancelled,
a storage gets its answer ready, the receiver of a channel takes a message, another exchange goes on. `Node.course` is what
becomes of an exchange under a list of such moves, with a note of every look that it takes at the parts around the node
(taking notes changes nothing, `Node.poll_noted`).

`Node.reached_course` says in one place what a move can do to a course, so everything that holds of courses is proved by
induction on `Course.Reached`; what every look meets is in `Course.Reached.exists_of_mem_looks`. An exchange that has been
polled more often than it had to wait has ended (`Node.wakes_le_waits_or_ended`).
-/

namespace SecretsGateway

variable {σ : Type}

/-- A look at a call: the parts before and after it, and the answer, if there was one. -/
structure Look (σ : Type) where
  call : Call
  /-- The call was begun by this look. -/
  isFirst : Bool
  before : σ
  after : σ
  answer : Option call.Answer

/-- The same parts, which also take a note of every look. -/
def Collaborators.noted (parts : Collaborators σ) : Collaborators (σ × List (Look σ)) where
  view s := parts.view s.1
  poll call begun s :=
    let p := parts.poll call begun s.1
    ((p.1, s.2 ++ [⟨call, !begun, s.1, p.1, p.2.answer⟩]), p.2)

/-- Progress of an exchange without the notes. -/
def Progress.unnoted (p : Progress (σ × List (Look σ))) : Progress σ := ⟨p.state.1, p.stage, p.events, p.waiting⟩

/-- What may happen to an exchange. -/
inductive Move (σ : Type) where
  /-- It is polled. -/
  | wake
  /-- Something happens to the parts around the node that this exchange has no hand in. -/
  | stir (change : σ → σ)

/-- The move is a poll. -/
def Move.isWake : Move σ → Bool
  | wake => true
  | stir _ => false

/-- How far an exchange is, the parts around it, and what it has looked at and reported so far. -/
structure Course (σ : Type) where
  state : σ
  stage : Stage := .arrived
  looks : List (Look σ) := []
  events : List Event := []

/-- The course after a move. -/
def Course.move (n : Node) (parts : Collaborators σ) (d : Delivery) (c : Course σ) : Move σ → Course σ
  | .wake =>
    let p := n.poll parts.noted d (c.state, c.looks) c.stage
    ⟨p.state.1, p.stage, p.state.2, c.events ++ p.events⟩
  | .stir change => { c with state := change c.state }

/-- The course that an exchange takes under some moves. -/
def Node.course (n : Node) (parts : Collaborators σ) (d : Delivery) (state : σ) (moves : List (Move σ)) : Course σ :=
  moves.foldl (Course.move n parts d) { state }

namespace Node

variable (n : Node) (parts : Collaborators σ) (d : Delivery)

section Step

variable {parts} {s s' : σ} {call : Call} {events : List Event} (begun : Bool)

theorem step_of_cancelled (h : (parts.view s).cancelled = true) :
    n.step parts d s (.asking call begun) =
      ⟨s, .after (n.resume d (parts.view s) call none), (n.resume d (parts.view s) call none).events, false⟩ := by
  simp only [step, h, ↓reduceIte]

theorem step_of_none (h : (parts.view s).cancelled = false) (hp : parts.poll call begun s = (s', ⟨events, none⟩)) :
    n.step parts d s (.asking call begun) = ⟨s', .asking call true, events, true⟩ := by
  simp only [step, h, hp, Bool.false_eq_true, ↓reduceIte]

theorem step_of_some {a : call.Answer} (h : (parts.view s).cancelled = false)
    (hp : parts.poll call begun s = (s', ⟨events, some a⟩)) :
    n.step parts d s (.asking call begun) =
      ⟨s', .after (n.resume d (parts.view s') call (some a)),
        events ++ (n.resume d (parts.view s') call (some a)).events, false⟩ := by
  simp only [step, h, hp, Bool.false_eq_true, ↓reduceIte]

theorem poll_noted_of_poll {r : Reply call} (looks : List (Look σ)) (hp : parts.poll call begun s = (s', r)) :
    parts.noted.poll call begun (s, looks) = ((s', looks ++ [⟨call, !begun, s, s', r.answer⟩]), r) := by
  simp only [Collaborators.noted, hp]

end Step

private theorem step_noted (s : σ) (looks : List (Look σ)) (stage : Stage) :
    Progress.unnoted (n.step parts.noted d (s, looks) stage) = n.step parts d s stage := by
  cases stage with
  | arrived => rfl
  | ended => rfl
  | asking call begun =>
    cases hc : (parts.view s).cancelled with
    | true =>
      have hc' : (parts.noted.view (s, looks)).cancelled = true := hc
      rw [step_of_cancelled n d begun hc, step_of_cancelled n d begun hc']
      rfl
    | false =>
      have hc' : (parts.noted.view (s, looks)).cancelled = false := hc
      rcases hp : parts.poll call begun s with ⟨s', events, _ | a⟩
      · rw [step_of_none n d begun hc hp, step_of_none n d begun hc' (poll_noted_of_poll begun looks hp)]
        rfl
      · rw [step_of_some n d begun hc hp, step_of_some n d begun hc' (poll_noted_of_poll begun looks hp)]
        rfl

private theorem advance_noted (steps : Nat) (s : σ) (looks : List (Look σ)) (stage : Stage) :
    Progress.unnoted (n.advance parts.noted d steps (s, looks) stage) = n.advance parts d steps s stage := by
  induction steps generalizing s looks stage with
  | zero => rfl
  | succ steps ih =>
    have hstep := step_noted n parts d s looks stage
    unfold advance
    generalize n.step parts.noted d (s, looks) stage = p at hstep ⊢
    obtain ⟨⟨s', looks'⟩, stage', events, waiting⟩ := p
    rw [← hstep]
    cases waiting with
    | true => rfl
    | false =>
      have hrest := ih s' looks' stage'
      simp only [Progress.unnoted, Bool.false_eq_true, ↓reduceIte] at hrest ⊢
      rw [← hrest]

/-- A poll does the same whether or not notes are taken. -/
theorem poll_noted (s : σ) (looks : List (Look σ)) (stage : Stage) :
    Progress.unnoted (n.poll parts.noted d (s, looks) stage) = n.poll parts d s stage :=
  advance_noted n parts d stage.rank s looks stage

end Node

/-! ### Everything that can happen -/

namespace Course

variable (n : Node) (parts : Collaborators σ) (d : Delivery)

/-- The courses that an exchange can take from a state under some moves, step by step. A step may be spent on nothing but
waiting; an ended exchange takes none. -/
inductive Reached (state : σ) (moves : List (Move σ)) : Course σ → Prop
  | start : Reached state moves { state }
  /-- The parts around the node change. -/
  | stirred {c : Course σ} {change : σ → σ} : Reached state moves c → .stir change ∈ moves →
      Reached state moves { c with state := change c.state }
  /-- The message is received. -/
  | received {c : Course σ} : Reached state moves c → c.stage = .arrived →
      Reached state moves ⟨c.state, .after (Node.receive d), c.looks, c.events ++ (Node.receive d).events⟩
  /-- The scope turns out to be cancelled, and the call is not looked at. -/
  | cancelled {c : Course σ} {call : Call} {begun : Bool} : Reached state moves c → c.stage = .asking call begun →
      (parts.view c.state).cancelled = true →
      Reached state moves ⟨c.state, .after (n.resume d (parts.view c.state) call none), c.looks,
        c.events ++ (n.resume d (parts.view c.state) call none).events⟩
  /-- The call has no answer yet. -/
  | waited {c : Course σ} {call : Call} {begun : Bool} {state' : σ} {events : List Event} :
      Reached state moves c → c.stage = .asking call begun → (parts.view c.state).cancelled = false →
      parts.poll call begun c.state = (state', ⟨events, none⟩) →
      Reached state moves ⟨state', .asking call true, c.looks ++ [⟨call, !begun, c.state, state', none⟩], c.events ++ events⟩
  /-- The call has an answer. -/
  | answered {c : Course σ} {call : Call} {begun : Bool} {state' : σ} {events : List Event} {a : call.Answer} :
      Reached state moves c → c.stage = .asking call begun → (parts.view c.state).cancelled = false →
      parts.poll call begun c.state = (state', ⟨events, some a⟩) →
      Reached state moves ⟨state', .after (n.resume d (parts.view state') call (some a)),
        c.looks ++ [⟨call, !begun, c.state, state', some a⟩],
        c.events ++ (events ++ (n.resume d (parts.view state') call (some a)).events)⟩

/-- The course after some progress of its exchange. -/
def after (c : Course σ) (p : Progress (σ × List (Look σ))) : Course σ :=
  ⟨p.state.1, p.stage, p.state.2, c.events ++ p.events⟩

variable {n parts d} {state : σ} {moves : List (Move σ)} {c : Course σ}

/-- A step of an exchange leads from courses that can be taken to such courses. -/
theorem Reached.step (h : Reached n parts d state moves c) :
    Reached n parts d state moves (c.after (n.step parts.noted d (c.state, c.looks) c.stage)) := by
  cases hstage : c.stage with
  | arrived => exact .received h hstage
  | ended =>
    have hc : c.after (n.step parts.noted d (c.state, c.looks) .ended) = c := by
      simp only [Node.step, after, List.append_nil, ← hstage]
    rwa [hc]
  | asking call begun =>
    cases hc : (parts.view c.state).cancelled with
    | true =>
      have hc' : (parts.noted.view (c.state, c.looks)).cancelled = true := hc
      rw [Node.step_of_cancelled n d begun hc']
      exact .cancelled h hstage hc
    | false =>
      have hc' : (parts.noted.view (c.state, c.looks)).cancelled = false := hc
      rcases hp : parts.poll call begun c.state with ⟨s', events, _ | a⟩
      · rw [Node.step_of_none n d begun hc' (Node.poll_noted_of_poll begun c.looks hp)]
        exact .waited h hstage hc hp
      · rw [Node.step_of_some n d begun hc' (Node.poll_noted_of_poll begun c.looks hp)]
        exact .answered h hstage hc hp

private theorem Reached.advance (h : Reached n parts d state moves c) (steps : Nat) :
    Reached n parts d state moves (c.after (n.advance parts.noted d steps (c.state, c.looks) c.stage)) := by
  induction steps generalizing c with
  | zero =>
    have hc : c.after (n.advance parts.noted d 0 (c.state, c.looks) c.stage) = c := by
      simp [Node.advance, after]
    rwa [hc]
  | succ steps ih =>
    have hstep := h.step
    unfold Node.advance
    generalize n.step parts.noted d (c.state, c.looks) c.stage = p at hstep ⊢
    cases hw : p.waiting with
    | true => simpa [hw] using hstep
    | false => simpa [hw, after] using ih hstep

private theorem Reached.move (h : Reached n parts d state moves c) {m : Move σ} (hm : m ∈ moves) :
    Reached n parts d state moves (c.move n parts d m) := by
  cases m with
  | wake => exact h.advance c.stage.rank
  | stir change => exact .stirred h hm

/-- Every look was taken in a course that asked for the call, and in a scope that was not cancelled. -/
theorem Reached.exists_of_mem_looks (h : Reached n parts d state moves c) {look : Look σ} (hlook : look ∈ c.looks) :
    ∃ c', Reached n parts d state moves c' ∧ c'.looks <+: c.looks ∧ c'.stage = .asking look.call (!look.isFirst) ∧
      c'.state = look.before ∧ (parts.view look.before).cancelled = false ∧
      (parts.poll look.call (!look.isFirst) look.before).1 = look.after := by
  induction h with
  | start => cases hlook
  | stirred _ _ ih => exact ih hlook
  | received _ _ ih => exact ih hlook
  | cancelled _ _ _ ih => exact ih hlook
  | @waited c call begun s' events h hstage hc hp ih =>
    rcases List.mem_append.1 hlook with hlook | hlook
    · obtain ⟨c', h', hpre, hlooked⟩ := ih hlook
      exact ⟨c', h', hpre.trans (List.prefix_append _ _), hlooked⟩
    · obtain rfl := List.mem_singleton.1 hlook
      refine ⟨c, h, List.prefix_append _ _, ?_⟩
      simp only [Bool.not_not, hstage, hc, hp, and_self]
  | @answered c call begun s' events a h hstage hc hp ih =>
    rcases List.mem_append.1 hlook with hlook | hlook
    · obtain ⟨c', h', hpre, hlooked⟩ := ih hlook
      exact ⟨c', h', hpre.trans (List.prefix_append _ _), hlooked⟩
    · obtain rfl := List.mem_singleton.1 hlook
      refine ⟨c, h, List.prefix_append _ _, ?_⟩
      simp only [Bool.not_not, hstage, hc, hp, and_self]

/-- A look shows what the called part answers. -/
theorem Reached.poll_of_mem_looks (h : Reached n parts d state moves c) {look : Look σ} (hlook : look ∈ c.looks) :
    ∃ events, parts.poll look.call (!look.isFirst) look.before = (look.after, ⟨events, look.answer⟩) := by
  induction h with
  | start => cases hlook
  | stirred _ _ ih => exact ih hlook
  | received _ _ ih => exact ih hlook
  | cancelled _ _ _ ih => exact ih hlook
  | @waited c call begun s' events _ _ _ hp ih =>
    rcases List.mem_append.1 hlook with hlook | hlook
    · exact ih hlook
    · obtain rfl := List.mem_singleton.1 hlook
      exact ⟨events, by rw [Bool.not_not, hp]⟩
  | @answered c call begun s' events a _ _ _ hp ih =>
    rcases List.mem_append.1 hlook with hlook | hlook
    · exact ih hlook
    · obtain rfl := List.mem_singleton.1 hlook
      exact ⟨events, by rw [Bool.not_not, hp]⟩

section Holds

variable {p : σ → Prop} (hstart : p state) (hpoll : ∀ call begun s, p s → p (parts.poll call begun s).1)
  (hstir : ∀ change, .stir change ∈ moves → ∀ s, p s → p (change s))

include hstart hpoll hstir

/-- What holds at the start and is ended neither by looking at a call nor by a move holds along the course. -/
theorem Reached.holds (h : Reached n parts d state moves c) : p c.state := by
  induction h with
  | start => exact hstart
  | stirred _ hm ih => exact hstir _ hm _ ih
  | received _ _ ih => exact ih
  | cancelled _ _ _ ih => exact ih
  | @waited c call begun s' events _ _ _ hp ih =>
    have hnext := hpoll call begun c.state ih
    rw [hp] at hnext
    exact hnext
  | @answered c call begun s' events a _ _ _ hp ih =>
    have hnext := hpoll call begun c.state ih
    rw [hp] at hnext
    exact hnext

theorem Reached.holds_after (h : Reached n parts d state moves c) {look : Look σ} (hlook : look ∈ c.looks) : p look.after := by
  obtain ⟨c', h', -, -, hbefore, -, hafter⟩ := h.exists_of_mem_looks hlook
  rw [← hafter, ← hbefore]
  exact hpoll _ _ _ (h'.holds hstart hpoll hstir)

end Holds

end Course

/-- Whatever course an exchange takes, it goes step by step as `Course.Reached` says. -/
theorem Node.reached_course (n : Node) (parts : Collaborators σ) (d : Delivery) (state : σ) (moves : List (Move σ)) :
    Course.Reached n parts d state moves (n.course parts d state moves) := by
  have hmoves : ∀ ms : List (Move σ), (∀ m ∈ ms, m ∈ moves) → ∀ c, Course.Reached n parts d state moves c →
      Course.Reached n parts d state moves (ms.foldl (Course.move n parts d) c) := by
    intro ms
    induction ms with
    | nil => exact fun _ c h => h
    | cons m ms ih =>
      intro hsub c h
      have hnext := h.move (hsub m List.mem_cons_self)
      exact ih (fun m' hm' => hsub m' (List.mem_cons_of_mem m hm')) _ hnext
  exact hmoves moves (fun m hm => hm) _ .start

/-- How many looks have found no answer. -/
def Look.waits (looks : List (Look σ)) : Nat := looks.countP fun look => look.answer.isNone

/-- Enough steps end an exchange, or bring it to a look without an answer. -/
private theorem Node.advance_progress (n : Node) (parts : Collaborators σ) (d : Delivery) (steps : Nat) (s : σ)
    (looks : List (Look σ)) (stage : Stage) (hsteps : stage.rank ≤ steps) :
    let p := n.advance parts.noted d steps (s, looks) stage
    Look.waits looks ≤ Look.waits p.state.2 ∧ (p.stage = .ended ∨ Look.waits looks < Look.waits p.state.2) := by
  -- every step that does not wait lowers the rank of the stage
  induction steps generalizing s looks stage with
  | zero => exact ⟨Nat.le_refl _, .inl (Stage.rank_eq_zero.1 (Nat.le_zero.1 hsteps))⟩
  | succ steps ih =>
    unfold advance
    cases stage with
    | arrived => exact ih s looks _ (Nat.le_trans (Stage.rank_after_receive d) (Nat.le_of_succ_le_succ hsteps))
    | ended => exact ih s looks .ended (Nat.zero_le _)
    | asking call begun =>
      have hrank := fun v a => Nat.lt_of_lt_of_le (Stage.rank_after_resume n d v call a begun) hsteps
      cases hc : (parts.noted.view (s, looks)).cancelled with
      | true =>
        rw [step_of_cancelled n d begun hc]
        exact ih s looks _ (Nat.le_of_lt_succ (hrank _ _))
      | false =>
        rcases hp : parts.poll call begun s with ⟨s', events, _ | a⟩
        · rw [step_of_none n d begun hc (poll_noted_of_poll begun looks hp)]
          simp [Look.waits]
        · rw [step_of_some n d begun hc (poll_noted_of_poll begun looks hp)]
          have hrest := ih s' (looks ++ [⟨call, !begun, s, s', some a⟩]) _
            (Nat.le_of_lt_succ (hrank (parts.view s') (some a)))
          have hwaits : Look.waits (looks ++ [⟨call, !begun, s, s', some a⟩]) = Look.waits looks := by
            simp [Look.waits]
          rw [hwaits] at hrest
          exact hrest

/-- An exchange that has been polled more often than it had to wait has ended. -/
theorem Node.wakes_le_waits_or_ended (n : Node) (parts : Collaborators σ) (d : Delivery) (state : σ)
    (moves : List (Move σ)) :
    (n.course parts d state moves).stage = .ended ∨
      moves.countP Move.isWake ≤ Look.waits (n.course parts d state moves).looks := by
  -- the number of polls still covered by waits, or the end, survives every move
  have hmoves : ∀ (c : Course σ) (wakes : Nat), c.stage = .ended ∨ wakes ≤ Look.waits c.looks →
      (moves.foldl (Course.move n parts d) c).stage = .ended ∨
        wakes + moves.countP Move.isWake ≤ Look.waits (moves.foldl (Course.move n parts d) c).looks := by
    induction moves with
    | nil => exact fun c wakes h => h
    | cons m moves ih =>
      intro c wakes h
      rw [List.foldl_cons, List.countP_cons]
      cases m with
      | stir change => simpa [Move.isWake] using ih (c.move n parts d (.stir change)) wakes h
      | wake =>
        obtain ⟨hle, hend⟩ := n.advance_progress parts d c.stage.rank c.state c.looks c.stage (Nat.le_refl _)
        have hnext : (c.move n parts d .wake).stage = .ended ∨
            wakes + 1 ≤ Look.waits (c.move n parts d .wake).looks := by
          rcases h with h | h
          · left
            simp only [Course.move, poll, h, Stage.rank, advance]
          · exact hend.imp_right fun hlt => Nat.le_trans (Nat.succ_le_succ h) hlt
        have hrest := ih (c.move n parts d .wake) (wakes + 1) hnext
        simpa [Move.isWake, Nat.add_assoc, Nat.add_comm 1] using hrest
  simpa [course] using hmoves { state } 0 (.inr (Nat.zero_le _))

end SecretsGateway
