import SecretsGateway.Channel
import SecretsGateway.Exchange
import SecretsGateway.Script
import SecretsGateway.Timeline

/-!
# The world of a node

Everything that a node works with: its allowlist, a storage, perhaps a connection to the gateway, and time. A world is
what the parts around a node have as their common state.
-/

namespace SecretsGateway

/-- A storage behind a node. -/
inductive Storage where
  /-- A store with a clock in seconds, which answers every call at once. -/
  | memory (store : Store) (clock : Int64)
  | scripted (script : Script)

/-- A node's surroundings. -/
structure World where
  timeline : Timeline := {}
  station : Station := {}
  storage : Storage := .scripted {}
  link : Option (Channel Delivery) := none
  /-- The storage calls without an answer. -/
  pending : List PendingCall := []
  nextRoot : Root := 0

namespace World

def now (w : World) : Nat := w.timeline.now

/-- The answer of a scripted storage to a call that has begun, once it is due. -/
def settle {α : Type} (w : World) (p : PendingCall) (answer : α) : World × Option α :=
  if p.isDue w.now then
    ({ w with
        timeline := p.cancels.elim w.timeline w.timeline.cancel
        pending := w.pending.filter fun q => q.caller ≠ p.caller }, some answer)
  else (w, none)

/-- A look at a call to a scripted storage. -/
def perform {α : Type} (w : World) (script : Script) (caller : Root) (call : Call) (begun : Bool) (answer : α) :
    World × Option α :=
  if begun then
    match w.pending.find? fun p => p.caller = caller with
    | some p => w.settle p answer
    | none => (w, none)
  else
    let (script, p) := script.begin w.now caller call
    { w with storage := .scripted script, pending := p :: w.pending }.settle p answer

/-- A look at a sending: it fails without a receiver, and waits while the channel is full. -/
def transmit (w : World) (d : Delivery) : World × Option (Except TransportError Unit) :=
  match w.link with
  | none => (w, some (.error .notSet))
  | some channel =>
    match channel.send d with
    | .sent channel => ({ w with link := some channel }, some (.ok ()))
    | .full => (w, none)
    | .closed => (w, some (.error .closed))

/-- A look at a call that an exchange has made in a scope. -/
def poll (w : World) (caller : Root) (begun : Bool) : (call : Call) → World × Reply call
  | .allow sender => (w, ⟨[], some (w.station.allowlist.allows sender)⟩)
  | .list owner =>
    match w.storage with
    | .memory store clock => (w, ⟨[], some (.ok (store.list clock owner))⟩)
    | .scripted script =>
      let (w, answer) := w.perform script caller (.list owner) begun script.rows
      (w, ⟨[], answer⟩)
  | .put write =>
    match w.storage with
    | .memory store clock =>
      match store.put clock write with
      | .ok store => ({ w with storage := .memory store clock }, ⟨[write.event], some (.ok ())⟩)
      | .error e => (w, ⟨[], some (.error e)⟩)
    | .scripted script =>
      let (w, answer) := w.perform script caller (.put write) begun script.written
      (w, ⟨[], answer⟩)
  | .send d =>
    let (w, answer) := w.transmit d
    (w, ⟨[], answer⟩)

/-- The world as it is seen from a scope. -/
def collaborators (s : Scope) : Collaborators World where
  view w := ⟨s.isCancelled w.timeline.moment, w.link.isSome⟩
  poll call begun w := w.poll s.root begun call

end World

end SecretsGateway
