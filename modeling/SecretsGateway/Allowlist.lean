import SecretsGateway.Event

/-!
# The allowlist

The accounts that may use a node, and whether the list is kept up to date. Starting a running list and closing one that
does not run are refused.
-/

namespace SecretsGateway

/-- Why a list cannot be started or closed. -/
inductive AllowlistError where
  | alreadyStarted
  | notRunning
  deriving DecidableEq, Repr

def AllowlistError.message : AllowlistError → String
  | .alreadyStarted => "allowlist already started"
  | .notRunning => "allowlist not running"

/-- The allowed accounts, each once. -/
structure Allowlist where
  allowed : List Address := []
  running : Bool := false
  nodup_allowed : allowed.Nodup := by simp

namespace Allowlist

/-- The account may use the node. -/
def allows (l : Allowlist) (a : Address) : Bool := l.allowed.contains a

def allow (l : Allowlist) (a : Address) : Allowlist :=
  if h : a ∈ l.allowed then l
  else { l with allowed := a :: l.allowed, nodup_allowed := List.nodup_cons.2 ⟨h, l.nodup_allowed⟩ }

def remove (l : Allowlist) (a : Address) : Allowlist :=
  { l with allowed := l.allowed.erase a, nodup_allowed := l.nodup_allowed.erase a }

/-- The list of some accounts, not yet running. -/
def ofList (accounts : List Address) : Allowlist := accounts.foldl allow {}

def start (l : Allowlist) : Except AllowlistError (Allowlist × List Event) :=
  if l.running then .error .alreadyStarted
  else .ok ({ l with running := true }, [.allowlistStarted l.allowed.length])

def close (l : Allowlist) : Except AllowlistError (Allowlist × List Event) :=
  if l.running then .ok ({ l with running := false }, [.allowlistClosed]) else .error .notRunning

end Allowlist

end SecretsGateway
