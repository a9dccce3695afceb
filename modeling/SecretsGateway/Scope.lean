/-!
# Scopes of cancellation

Every request runs in a scope. A scope hangs on a root, which may be cancelled once and for all, and may have a deadline.
A scope derived from another has its root and never a later deadline.
-/

namespace SecretsGateway

/-- The name of a root. -/
abbrev Root := Nat

/-- A time in milliseconds, and the roots that are cancelled by then. -/
structure Moment where
  now : Nat := 0
  cancelled : List Root := []

/-- Where a request runs. -/
structure Scope where
  root : Root
  deadline : Option Nat := none
  deriving DecidableEq, Repr

namespace Scope

/-- The scope with another deadline; of two deadlines the earlier counts. -/
def withDeadline (s : Scope) (t : Nat) : Scope :=
  { s with deadline := some <|
      match s.deadline with
      | some d => min d t
      | none => t }

/-- The scope with a deadline some milliseconds from now. -/
def withTimeout (s : Scope) (now ms : Nat) : Scope := s.withDeadline (now + ms)

/-- The scope is cancelled: its root is, or its deadline has come. -/
def isCancelled (s : Scope) (m : Moment) : Bool :=
  m.cancelled.contains s.root || s.deadline.any fun d => d ≤ m.now

end Scope

/-- How work in a scope ends. -/
inductive Outcome (α : Type) where
  | cancelled
  | done (a : α)
  deriving DecidableEq, Repr

end SecretsGateway
