import SecretsGateway.Scope

/-!
# Races against cancellation

Work in a scope is polled again and again until it is done, and so is a waiter, which is over as soon as it notices that the
scope is cancelled. The waiter listens to the flag of the root, and has a timer set for the deadline. In a `Race` the clock is
read once, before anything is begun. Then the waiter comes first at every poll, and the work is not touched any more once the
waiter is over.

Timers do not read the clock. A driver fires those that are due, in turns of its own between the polls, so what the clock has
shown since its last turn is not noticed before the next (`Scene`). How receivers of a flag and timers work inside is left open:
a `Runtime` is what they are relied on for. What is noticed is `Runtime.notices`, and a driver that lags behind makes this less
than what the clock says.
-/

namespace SecretsGateway

/-! ### Flags -/

/-- A moment, and the roots that nobody can cancel any more. -/
structure Setting extends Moment where
  released : List Root := []

/-- The flag of a root: whether it is raised, how often it was written, and whether it may be written again. -/
structure Flag where
  isRaised : Bool
  writes : Nat
  isHeld : Bool

/-- The only thing ever written to a flag is that its root is cancelled. -/
def Setting.flag (x : Setting) (r : Root) : Flag where
  isRaised := x.cancelled.contains r
  writes := x.cancelled.count r
  isHeld := !x.released.contains r

/-- A setting, and the time of the last turn of the driver, which has fired the timers that were due by then. -/
structure Scene extends Setting where
  fired : Nat
  fired_le : fired ≤ now

/-- What there is to say about the writes of a flag that a receiver has not seen. -/
inductive News where
  /-- There are some; they are seen now. -/
  | written
  /-- There are none yet. -/
  | silence
  /-- There will be none. -/
  | closed

/-- Receivers, which watch a flag, and timers, which are set for a time. A receiver has seen the writes of its flag up to
some number. Who has asked either in vain is woken when there is something to ask for. -/
structure Runtime where
  Receiver : Type
  seen : Receiver → Nat
  /-- The receiver that comes with a flag. -/
  receiver : Receiver
  /-- The value of a flag, and the receiver that has seen it. -/
  read : Flag → Receiver → Bool × Receiver
  read_fst : ∀ f r, (read f r).1 = f.isRaised
  seen_read : ∀ f r, seen (read f r).2 = f.writes
  news : Flag → Receiver → News × Receiver
  news_of_ne : ∀ {f r}, seen r ≠ f.writes → (news f r).1 = .written ∧ seen (news f r).2 = f.writes
  news_of_held : ∀ {f r}, seen r = f.writes → f.isHeld = true → (news f r).1 = .silence ∧ seen (news f r).2 = seen r
  news_of_not_held : ∀ {f r}, seen r = f.writes → f.isHeld = false → (news f r).1 = .closed
  /-- Whether those who wait for news are woken when the flag becomes another. -/
  wakes : Receiver → Flag → Flag → Bool
  /-- Nobody sleeps through a write. -/
  wakes_of_written : ∀ {f f' r}, seen r = f.writes → seen r ≠ f'.writes → wakes r f f' = true
  Timer : Type
  time : Timer → Nat
  timer : Nat → Timer
  time_timer : ∀ t, time (timer t) = t
  /-- When the driver fires the timers that are set for some time: not before it, and perhaps at the next of its ticks. -/
  due : Nat → Nat
  le_due : ∀ t, t ≤ due t
  /-- Whether a timer is up after a turn of the driver at some time, and the timer. -/
  ask : (fired : Nat) → Timer → Bool × Timer
  ask_iff : ∀ {fired t}, (ask fired t).1 = true ↔ due (time t) ≤ fired
  time_ask : ∀ fired t, time (ask fired t).2 = time t
  /-- Whether those who wait for a timer are woken by a turn of the driver. -/
  rings : Timer → (fired fired' : Nat) → Bool
  /-- Nobody sleeps through the firing of a timer. -/
  rings_of_lt : ∀ {fired fired' t}, fired < due (time t) → due (time t) ≤ fired' → rings t fired fired' = true

namespace Runtime

/-- Receivers that keep nothing but the number of writes they have seen, and timers that keep their time. -/
def plain : Runtime where
  Receiver := Nat
  seen r := r
  receiver := 0
  read f _ := (f.isRaised, f.writes)
  read_fst _ _ := rfl
  seen_read _ _ := rfl
  news f r := if r ≠ f.writes then (.written, f.writes) else if f.isHeld then (.silence, r) else (.closed, r)
  news_of_ne h := by rw [if_pos h]; exact ⟨rfl, rfl⟩
  news_of_held h hheld := by rw [if_neg (not_not_intro h), if_pos hheld]; exact ⟨rfl, rfl⟩
  news_of_not_held h hheld := by rw [if_neg (not_not_intro h), if_neg (by rw [hheld]; decide)]
  wakes r f f' := r != f'.writes || f.isHeld != f'.isHeld
  wakes_of_written _ hne := by rw [bne_iff_ne.2 hne, Bool.true_or]
  Timer := Nat
  time t := t
  timer t := t
  time_timer _ := rfl
  due t := t
  le_due _ := Nat.le_refl _
  ask fired t := (decide (t ≤ fired), t)
  ask_iff := decide_eq_true_iff
  time_ask _ _ := rfl
  rings t fired fired' := decide (fired < t ∧ t ≤ fired')
  rings_of_lt hlt hle := decide_eq_true ⟨hlt, hle⟩

variable (R : Runtime) {f : Flag} {r : R.Receiver}

/-- What is noticed of the cancellation of a scope: the flag of its root, and a timer set for its deadline. -/
def notices (s : Scope) (x : Scene) : Bool :=
  x.cancelled.contains s.root || s.deadline.any fun d => R.due d ≤ x.fired

/-- What decides for work in a scope: the flag and the clock until it is begun, and then what is noticed. -/
def heeds (s : Scope) (x : Scene) (begun : Bool) : Bool := if begun then R.notices s x else s.isCancelled x.toMoment

/-- The driver is in step with the clock: whatever time has come, a timer set for it has been fired. -/
def InStep (x : Scene) : Prop := ∀ t ≤ x.now, R.due t ≤ x.fired

/-- A receiver that has just been read has no news. -/
private theorem news_read_ne_written : (R.news f (R.read f r).2).1 ≠ .written := by
  intro h
  have hseen := R.seen_read f r
  cases hheld : f.isHeld with
  | false => rw [R.news_of_not_held hseen hheld] at h; cases h
  | true => rw [(R.news_of_held hseen hheld).1] at h; cases h

end Runtime

/-! ### Waiters -/

/-- How far the wait for a flag is. -/
inductive Signal (R : Runtime) where
  | idle
  /-- News of the flag are awaited. -/
  | listening (r : R.Receiver)
  /-- There is nothing to wait for: the flag is down and stays down. -/
  | resigned
  | raised

namespace Signal

variable {R : Runtime}

/-- Reads the flag, and if it is down asks for news, over and over while there are any. -/
def listen (f : Flag) (r : R.Receiver) : Signal R :=
  if (R.read f r).1 then .raised
  else match _h : R.news f (R.read f r).2 with
    | (.written, r') => listen f r'
    | (.silence, r') => .listening r'
    | (.closed, _) => .resigned
termination_by 0
decreasing_by exact absurd (congrArg Prod.fst ‹_ = _›) R.news_read_ne_written

/-- Goes on with the wait as far as possible. -/
def poll (f : Flag) : Signal R → Signal R
  | .idle => listen f R.receiver
  | .listening r =>
    match R.news f r with
    | (.written, r') => listen f r'
    | (.silence, r') => .listening r'
    | (.closed, _) => .resigned
  | .resigned => .resigned
  | .raised => .raised

def isRaised : Signal R → Bool
  | .raised => true
  | _ => false

end Signal

/-- How far the wait for the cancellation of a scope is. -/
inductive Waiter (R : Runtime) where
  /-- A flag is waited for, and a timer if there is a deadline. -/
  | waiting (signal : Signal R) (timer : Option R.Timer)
  | finished

namespace Waiter

variable {R : Runtime}

/-- The wait for the cancellation of a scope. -/
def start (s : Scope) : Waiter R := .waiting .idle (s.deadline.map R.timer)

/-- Goes on with the wait as far as possible. Either of the two that are waited for ends it, whichever is asked first. -/
def poll (s : Scope) (x : Scene) : Waiter R → Waiter R
  | .waiting signal timer =>
    let signal := signal.poll (x.flag s.root)
    if signal.isRaised then .finished
    else match timer with
      | none => .waiting signal none
      | some timer =>
        let (isUp, timer) := R.ask x.fired timer
        if isUp then .finished else .waiting signal (some timer)
  | .finished => .finished

def isOver : Waiter R → Bool
  | .waiting .. => false
  | .finished => true

end Waiter

/-! ### Races -/

/-- How far work in a scope is. -/
inductive Race (R : Runtime) (α : Type) where
  | fresh
  | racing (w : Waiter R)
  | ended (o : Outcome α)

namespace Race

variable {R : Runtime} {σ α : Type} (s : Scope) (work : Moment → σ → σ × Option α) (x : Scene)

/-- Polls the waiter, and the work unless the waiter is over. -/
def contest (w : Waiter R) (state : σ) : Race R α × σ :=
  let w := w.poll s x
  if w.isOver then (.ended .cancelled, state)
  else match work x.toMoment state with
    | (state, some a) => (.ended (.done a), state)
    | (state, none) => (.racing w, state)

/-- Goes on with work in a scope as far as possible. In a scope that is cancelled from the start nothing is begun. -/
def poll : Race R α × σ → Race R α × σ
  | (.fresh, state) =>
    if s.isCancelled x.toMoment then (.ended .cancelled, state) else contest s work x (.start s) state
  | (.racing w, state) => contest s work x w state
  | (.ended o, state) => (.ended o, state)

def outcome : Race R α → Option (Outcome α)
  | .ended o => some o
  | _ => none

def isBegun : Race R α → Bool
  | .fresh => false
  | _ => true

end Race

end SecretsGateway
