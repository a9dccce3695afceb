import SecretsGateway.Race

/-!
# Timelines

A timeline is a moment and the cancellations that are set for later times. Time moves only when somebody waits or lets it
pass. Whoever waits polls again at every time at which something may have happened, and gives up when patience is exhausted.
-/

namespace SecretsGateway

/-- A cancellation set for a time. -/
structure Alarm where
  time : Nat
  root : Root
  deriving DecidableEq, Repr

/-- A moment and what is set for later. -/
structure Timeline where
  moment : Moment := {}
  alarms : List Alarm := []

namespace Timeline

/-- How many milliseconds anybody waits. -/
def patience : Nat := 3600000

def now (t : Timeline) : Nat := t.moment.now

/-- Cancels a root at once. -/
def cancel (t : Timeline) (r : Root) : Timeline := { t with moment.cancelled := r :: t.moment.cancelled }

/-- Sets a cancellation for some milliseconds from now. -/
def cancelLater (t : Timeline) (r : Root) (ms : Nat) : Timeline := { t with alarms := ⟨t.now + ms, r⟩ :: t.alarms }

/-- Lets every alarm ring that is due. -/
def ring (t : Timeline) : Timeline where
  moment := { t.moment with
    cancelled := (t.alarms.filter fun a => a.time ≤ t.now).map Alarm.root ++ t.moment.cancelled }
  alarms := t.alarms.filter fun a => t.now < a.time

/-- The same timeline at another time. -/
def movedTo (t : Timeline) (time : Nat) : Timeline := { t with moment.now := time }

/-- Lets time pass without waiting for anything: the alarms due by now ring, those passed over do not yet. -/
def advance (t : Timeline) (ms : Nat) : Timeline := t.ring.movedTo (t.now + ms)

/-- Waits up to a time, and lets the alarms ring that are due by then. -/
def reach (t : Timeline) (time : Nat) : Timeline := (t.movedTo (max t.now time)).ring

/-- The later times, within patience, at which a scope may be cancelled or work be done, in order. -/
def wakeUps (t : Timeline) (s : Scope) (done : Option Nat) : List Nat :=
  let times := s.deadline.toList ++ (t.alarms.filter fun a => a.root = s.root).map Alarm.time ++ done.toList
  (times.filter fun time => time ≤ t.now + patience).mergeSort

/-- What a scope finds, while the handle of its root is held or is gone. Whenever time moves the timers are fired. -/
def scene (t : Timeline) (s : Scope) (held : Bool) : Scene where
  toMoment := t.moment
  released := if held then [] else [s.root]
  fired := t.now
  fired_le := Nat.le_refl _

/-- Polls at one time after the other, and stops where something is over; the timeline up to there, and what is left. -/
def follow {τ : Type} (s : Scope) (held : Bool) (poll : Scene → τ → τ) (isOver : τ → Bool) (t : Timeline) :
    List Nat → τ → Timeline × τ
  | [], rest => (t.reach (t.now + patience), rest)
  | time :: times, rest =>
    let rest := poll ((t.reach time).scene s held) rest
    if isOver rest then (t.reach time, rest) else t.follow s held poll isOver times rest

/-- Polls at once and then at every time at which something may have happened. -/
def drive {τ : Type} (t : Timeline) (s : Scope) (held : Bool) (done : Option Nat) (poll : Scene → τ → τ) (isOver : τ → Bool)
    (start : τ) : Timeline × τ :=
  let rest := poll (t.scene s held) start
  if isOver rest then (t, rest) else t.follow s held poll isOver (t.wakeUps s done) rest

/-- Work that is done from some time on, or never; its polls are counted. -/
def work (done : Option Nat) (m : Moment) (polls : Nat) : Nat × Option Unit :=
  (polls + 1, if done.any fun time => time ≤ m.now then some () else none)

/-- Does work in a scope that takes some milliseconds, or for ever; there is no outcome when patience is exhausted. The number
is that of the polls of the work. -/
def run (t : Timeline) (s : Scope) (held : Bool) (ms : Option Nat) : Timeline × Option (Outcome Unit) × Nat :=
  let done := ms.map fun ms => t.now + ms
  let (t, race, polls) := t.drive s held done (Race.poll s (work done)) (fun p => p.1.outcome.isSome)
    ((.fresh, 0) : Race .plain Unit × Nat)
  (t, race.outcome, polls)

/-- Waits until a scope is cancelled, or until patience is exhausted. -/
def wait (t : Timeline) (s : Scope) (held : Bool) : Timeline × Bool :=
  let (t, w) := t.drive s held none (Waiter.poll s) Waiter.isOver (.start s : Waiter .plain)
  (t, w.isOver)

end Timeline

end SecretsGateway
