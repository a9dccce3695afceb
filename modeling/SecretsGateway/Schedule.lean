import SecretsGateway.World

/-!
# Schedules

Several exchanges may share a world. Each has a plan: when its message arrives, and how its scope is cancelled. They are
polled in turn; then the world's time moves to the next time at which one of them may go on. An exchange that has not
ended when patience is exhausted is given up.
-/

namespace SecretsGateway

/-- When a message arrives, and how its scope is cancelled; all times are milliseconds. -/
structure Plan where
  /-- The time until the message arrives. -/
  delay : Nat := 0
  /-- The scope is cancelled beforehand. -/
  cancelled : Bool := false
  /-- The deadline, counted from the arrival. -/
  timeout : Option Nat := none
  /-- When the scope is cancelled, counted from the arrival. -/
  cancelAfter : Option Nat := none
  /-- The next call to a scripted storage cancels the scope at its end. -/
  cancelInStorage : Bool := false
  deriving DecidableEq, Repr

/-- How an exchange has come to an end. -/
structure Ending where
  /-- It has ended by itself; otherwise it was given up. -/
  isDone : Bool
  /-- The milliseconds since the arrival. -/
  elapsed : Nat
  deriving DecidableEq, Repr

/-- An exchange with its plan. -/
structure Exchange where
  delivery : Delivery
  plan : Plan
  scope : Scope
  arrival : Nat
  stage : Stage := .arrived
  /-- The message has arrived. -/
  begun : Bool := false
  ending : Option Ending := none

namespace World

/-- Takes the next root for an exchange that is to come. -/
def expect (w : World) (d : Delivery) (plan : Plan) : World × Exchange :=
  let arrival := w.now + plan.delay
  ({ w with nextRoot := w.nextRoot + 1 },
    { delivery := d, plan, arrival, scope := ⟨w.nextRoot, plan.timeout.map (arrival + ·)⟩ })

/-- The message of an exchange arrives; what is planned for its scope is set. -/
def begin (w : World) (e : Exchange) : World :=
  let root := e.scope.root
  let timeline := if e.plan.cancelled then w.timeline.cancel root else w.timeline
  let storage :=
    match w.storage with
    | .scripted script => if e.plan.cancelInStorage then .scripted { script with cancelNext := some root } else w.storage
    | .memory .. => w.storage
  { w with timeline := e.plan.cancelAfter.elim timeline (timeline.cancelLater root), storage }

/-- The later times at which an exchange may go on. -/
def wakeUps (w : World) (e : Exchange) : List Nat :=
  if e.ending.isSome then []
  else if !e.begun then [e.arrival]
  else
    let root := e.scope.root
    let dues := (w.pending.filter fun p => p.caller = root).filterMap PendingCall.due
    let times := (e.arrival + Timeline.patience) :: (e.scope.deadline.toList ++ dues)
    (w.timeline.alarms.filter fun a => a.root = root).map (fun a : Alarm => max w.now a.time) ++
      times.filter fun time => w.now < time

end World

/-- Exchanges in the order of their last move, with their world and what has been reported. -/
structure Schedule where
  world : World
  exchanges : List Exchange := []
  events : List Event := []

namespace Schedule

/-- Polls an exchange whose message has arrived; it goes behind the others unless it is still where it was. -/
def pollOne (n : Node) (s : Schedule) (e : Exchange) : Schedule × Option Exchange :=
  if e.ending.isSome ∨ s.world.now < e.arrival then (s, some e)
  else
    let world := if e.begun then s.world else s.world.begin e
    let p := n.poll (World.collaborators e.scope) e.delivery world e.stage
    let elapsed := p.state.now - e.arrival
    let ending : Option Ending :=
      if p.stage = .ended then some ⟨true, elapsed⟩
      else if Timeline.patience ≤ elapsed then some ⟨false, elapsed⟩
      else none
    let polled := { e with stage := p.stage, begun := true, ending }
    let s := { s with world := p.state, events := s.events ++ p.events }
    if p.stage = e.stage then (s, some polled) else ({ s with exchanges := s.exchanges ++ [polled] }, none)

def round (n : Node) (s : Schedule) : Schedule :=
  let (stayed, s) := s.exchanges.foldl
    (fun (stayed, s) e =>
      match pollOne n s e with
      | (s, some e) => (stayed ++ [e], s)
      | (s, none) => (stayed, s))
    ([], { s with exchanges := [] })
  { s with exchanges := stayed ++ s.exchanges }

/-- Rounds at all times at which some exchange may go on, for at most so many rounds. -/
def run (n : Node) : (rounds : Nat) → Schedule → Schedule
  | 0, s => s
  | rounds + 1, s =>
    let s := s.round n
    match (s.exchanges.flatMap s.world.wakeUps).min? with
    | none => s
    | some time => run n rounds { s with world.timeline := s.world.timeline.reach time }

end Schedule

namespace World

/-- Handles some messages together: the world afterwards, how each exchange has come to an end, and what was reported. An
exchange goes on at its arrival, its deadline, its cancellation, the answer of the storage, and the end of patience; so
six rounds for each are enough. -/
def handle (w : World) (n : Node) (arrivals : List (Delivery × Plan)) : World × List (Option Ending) × List Event :=
  let (w, exchanges) := arrivals.foldl
    (fun (w, exchanges) (d, plan) =>
      let (w, e) := w.expect d plan
      (w, exchanges ++ [e]))
    (w, [])
  let s := Schedule.run n (6 * exchanges.length + 1) { world := w, exchanges }
  let inOrder := s.exchanges.mergeSort fun a b => a.scope.root ≤ b.scope.root
  ({ s.world with pending := [] }, inOrder.map Exchange.ending, s.events)

end World

end SecretsGateway
