import SecretsGateway.Node

/-!
# Exchanges

An exchange is the handling of one message, interrupted whenever a part that the node has called does not answer at once.
It is polled again and again. Each step tests for cancellation before it looks at the call that it waits for, so a call is
never begun, and an answer never taken, in a cancelled scope. The parts around the node are a parameter.
-/

namespace SecretsGateway

inductive Stage where
  | arrived
  /-- Waits for a call, which has been begun or not. -/
  | asking (call : Call) (begun : Bool)
  | ended
  deriving DecidableEq

namespace Stage

def after (t : Turn) : Stage :=
  match t.next with
  | some call => asking call false
  | none => ended

/-- How many steps may still follow that are not spent on waiting. -/
def rank : Stage → Nat
  | arrived => 4
  | asking (.allow _) _ => 3
  | asking (.list _) _ => 2
  | asking (.put _) _ => 2
  | asking (.send _) _ => 1
  | ended => 0

end Stage

/-- What looking at a call shows: the reports of the called part, and its answer if it has one. -/
structure Reply (call : Call) where
  events : List Event := []
  answer : Option call.Answer

/-- The parts around a node, with a common state. -/
structure Collaborators (σ : Type) where
  view : σ → View
  /-- Begins a call, or looks at one that has been begun. -/
  poll : (call : Call) → (begun : Bool) → σ → σ × Reply call

/-- What a step of an exchange leads to. -/
structure Progress (σ : Type) where
  state : σ
  stage : Stage
  events : List Event
  /-- The call that was looked at has no answer yet. -/
  waiting : Bool := false

namespace Node

variable {σ : Type}

def step (n : Node) (parts : Collaborators σ) (d : Delivery) (state : σ) : Stage → Progress σ
  | .arrived =>
    let turn := receive d
    ⟨state, .after turn, turn.events, false⟩
  | .ended => ⟨state, .ended, [], false⟩
  | .asking call begun =>
    if (parts.view state).cancelled then
      let turn := n.resume d (parts.view state) call none
      ⟨state, .after turn, turn.events, false⟩
    else
      match parts.poll call begun state with
      | (state, ⟨events, none⟩) => ⟨state, .asking call true, events, true⟩
      | (state, ⟨events, some answer⟩) =>
        let turn := n.resume d (parts.view state) call (some answer)
        ⟨state, .after turn, events ++ turn.events, false⟩

/-- Steps on until the exchange waits or has ended, for at most so many steps. -/
def advance (n : Node) (parts : Collaborators σ) (d : Delivery) : (steps : Nat) → σ → Stage → Progress σ
  | 0, state, stage => ⟨state, stage, [], false⟩
  | steps + 1, state, stage =>
    let p := n.step parts d state stage
    if p.waiting then p
    else
      let rest := n.advance parts d steps p.state p.stage
      { rest with events := p.events ++ rest.events }

/-- One poll of an exchange: all steps that can be taken without waiting. -/
def poll (n : Node) (parts : Collaborators σ) (d : Delivery) (state : σ) (stage : Stage) : Progress σ :=
  n.advance parts d stage.rank state stage

end Node

end SecretsGateway
