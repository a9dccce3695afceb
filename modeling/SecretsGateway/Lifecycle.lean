import SecretsGateway.Json.Scalar

/-!
# Services that start once and stop once

A service moves from unstarted over starting to started, or to a failed start, and from started over stopping to
stopped. Each attempt begins with one test of the state; only an attempt that passes it runs its work, and only such an
attempt ends it.
-/

namespace SecretsGateway

/-- How far a service is. -/
inductive ServiceState where
  | unstarted
  | starting
  | started
  | startFailed
  | stopping
  | stopped
  deriving DecidableEq, Repr

namespace ServiceState

/-- All states, in the order of a life. -/
def all : List ServiceState := [unstarted, starting, started, startFailed, stopping, stopped]

def name : ServiceState → String
  | unstarted => "Unstarted"
  | starting => "Starting"
  | started => "Started"
  | startFailed => "StartFailed"
  | stopping => "Stopping"
  | stopped => "Stopped"

instance : ToString ServiceState := ⟨name⟩

def ofName? (s : String) : Option ServiceState := all.find? fun state => state.name == s

theorem ofName?_name (s : ServiceState) : ofName? s.name = some s := by cases s <;> decide

/-- Reads the name of a state. -/
def readName (s : Bytes) : Json.Result ServiceState :=
  (Json.string "variant identifier" s).andThen fun t rest =>
    match ofName? t with
    | some state => .ok (state, rest)
    | none => Json.failHere (.unknownName t (all.map name)) rest

/-- Reads the name of a state as the key of an object, after the opening bracket. -/
def readKey (s : Bytes) : Json.Result ServiceState :=
  match Json.skipBlank s with
  | [] => Json.failNext .endInObject []
  | b :: rest =>
    if b = Json.quote then readName (b :: rest)
    else if b = Json.closeObject then Json.failNext .wantsValue (b :: rest)
    else Json.failNext .keyNotText (b :: rest)

/-- Reads a state: its name, or an object with its name as the only key and `null` under it. -/
def read (s : Bytes) : Json.Result ServiceState :=
  match Json.skipBlank s with
  | [] => Json.failNext .endForValue []
  | b :: rest =>
    if b = Json.quote then readName (b :: rest)
    else if b = Json.openObject then
      (readKey rest).andThen fun state rest =>
        match Json.skipBlank rest with
        | [] => Json.failNext .endInObject []
        | c :: rest =>
          if c ≠ Json.colon then Json.failNext .wantsColon (c :: rest)
          else (Json.null rest).andThen fun _ rest =>
            match Json.skipBlank rest with
            | [] => Json.failHere .endInObject []
            | d :: rest => if d = Json.closeObject then .ok (state, rest) else Json.failHere .wantsValue (d :: rest)
    else Json.failNext .wantsValue (b :: rest)

def decode (document : Bytes) : Except Json.Error ServiceState := Json.decode read document

end ServiceState

/-- Why an attempt to start or stop a service is refused. -/
inductive LifecycleError where
  | alreadyStarted (service : String) (state : ServiceState)
  | notStarted (service : String) (state : ServiceState)
  deriving DecidableEq, Repr

def LifecycleError.message : LifecycleError → String
  | .alreadyStarted service state => s!"{service} has already been started once (state: {state})"
  | .notStarted service state => s!"{service} cannot be stopped in state {state}"

/-- The two things that can be attempted. -/
inductive Attempt where
  | start
  | stop
  deriving DecidableEq, Repr

namespace Attempt

/-- The state in which an attempt may begin. -/
def source : Attempt → ServiceState
  | start => .unstarted
  | stop => .started

/-- The state while the work of an attempt runs. -/
def during : Attempt → ServiceState
  | start => .starting
  | stop => .stopping

/-- The state after the work has ended well or badly; a service is stopped either way. -/
def target (attempt : Attempt) (ok : Bool) : ServiceState :=
  match attempt with
  | start => if ok then .started else .startFailed
  | stop => .stopped

/-- The refusal of an attempt that finds the service in a state. -/
def refusal (attempt : Attempt) (service : String) (state : ServiceState) : LifecycleError :=
  match attempt with
  | start => .alreadyStarted service state
  | stop => .notStarted service state

/-- The test that begins an attempt: the state while its work runs, or a refusal. -/
def begin (attempt : Attempt) (service : String) (state : ServiceState) : Except LifecycleError ServiceState :=
  if state = attempt.source then .ok attempt.during else .error (attempt.refusal service state)

end Attempt

end SecretsGateway
