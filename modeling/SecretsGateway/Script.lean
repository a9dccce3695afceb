import SecretsGateway.Node
import SecretsGateway.Scope

/-!
# Scripted storage

A storage that keeps nothing and answers what it has been told to, each call after a delay of its own. It notes the calls
in the order in which they begin, and it can be told to cancel a root just before it answers.
-/

namespace SecretsGateway

/-- What a storage has been told to do. -/
structure Script where
  rows : Except StorageError (List SecretRow) := .ok []
  written : Except StorageError Unit := .ok ()
  /-- The delays of the next calls in milliseconds; `none` never ends, and without a delay a call is answered at once. -/
  delays : List (Option Nat) := []
  /-- The calls so far. -/
  calls : List Call := []
  /-- The root that the next call cancels at its end. -/
  cancelNext : Option Root := none

/-- A call that has begun and has no answer yet. -/
structure PendingCall where
  /-- The root of the scope in which the call was made. -/
  caller : Root
  /-- When the answer comes, if ever. -/
  due : Option Nat
  /-- The root that is cancelled just before. -/
  cancels : Option Root
  deriving DecidableEq, Repr

namespace Script

/-- A call begins. -/
def begin (s : Script) (now : Nat) (caller : Root) (call : Call) : Script × PendingCall :=
  ({ s with calls := s.calls ++ [call], delays := s.delays.tail, cancelNext := none },
    ⟨caller, (s.delays.headD (some 0)).map (now + ·), s.cancelNext⟩)

end Script

/-- A call is due at a time. -/
def PendingCall.isDue (p : PendingCall) (now : Nat) : Bool := p.due.any fun time => time ≤ now

end SecretsGateway
