import SecretsGateway.Lifecycle

/-!
# Services with many callers

Several callers may try to start or stop one service, and their work may overlap. A call is one test of the state, its
work, and the state left behind when the work ends; between these steps other calls may take theirs, and a caller may go
away, which leaves the service in the middle of its attempt.
-/

namespace SecretsGateway

/-- A service and the calls whose work is under way, named by tickets. -/
structure Service (τ : Type) where
  state : ServiceState := .unstarted
  underWay : List (τ × Attempt) := []
  /-- The attempts whose work has begun, the latest first. -/
  begun : List Attempt := []

namespace Service

variable {τ : Type} [DecidableEq τ]

/-- The calls under way, less that of a ticket. -/
def others (s : Service τ) (ticket : τ) : List (τ × Attempt) := s.underWay.filter fun call => call.1 ≠ ticket

/-- A call takes the test. If it passes, its work begins. -/
def begin (s : Service τ) (ticket : τ) (name : String) (attempt : Attempt) : Except LifecycleError (Service τ) :=
  match attempt.begin name s.state with
  | .error e => .error e
  | .ok state => .ok ⟨state, (ticket, attempt) :: s.others ticket, attempt :: s.begun⟩

/-- The work of a call ends, well or badly; nothing happens if the ticket has none. -/
def finish (s : Service τ) (ticket : τ) (ok : Bool) : Service τ :=
  match s.underWay.find? fun call => call.1 = ticket with
  | none => s
  | some (_, attempt) => { s with state := attempt.target ok, underWay := s.others ticket }

/-- The caller of a ticket goes away before its work ends. -/
def abandon (s : Service τ) (ticket : τ) : Service τ := { s with underWay := s.others ticket }

end Service

end SecretsGateway
