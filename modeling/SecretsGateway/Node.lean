import SecretsGateway.Config
import SecretsGateway.Response
import SecretsGateway.Store

/-!
# The node

A node answers the messages that a gateway hands to it. It keeps nothing between two messages. Handling one is a chain of
calls to the parts around it, at most one admission, one storage call and one sending; `receive` gives the first call, and
`resume` says what follows the answer to a call, or its cancellation. What a node reports on the way comes with each turn.
-/

namespace SecretsGateway

/-- A message on its way from or to a gateway. -/
structure Delivery where
  gateway : String
  message : Message
  deriving DecidableEq

/-- What a node asks of the parts around it. -/
inductive Call where
  | allow (sender : Address)
  | list (owner : Address)
  | put (write : SecretWrite)
  | send (answer : Delivery)
  deriving DecidableEq

/-- What is answered to a call. -/
def Call.Answer : Call → Type
  | .allow _ => Bool
  | .list _ => Except StorageError (List SecretRow)
  | .put _ => Except StorageError Unit
  | .send _ => Except TransportError Unit

/-- One turn of a node: what it reports, and the call that it waits for next, if it is not finished. -/
structure Turn where
  events : List Event
  next : Option Call
  deriving DecidableEq

/-- The last turn, with one report. -/
def Turn.last (e : Event) : Turn := ⟨[e], none⟩

/-- What a node sees when it takes a turn. -/
structure View where
  /-- The scope of the request is cancelled. -/
  cancelled : Bool
  /-- There is a connection to the gateway. -/
  attached : Bool
  deriving DecidableEq, Repr

/-- The answer to a request to list. -/
def Response.ofRows : Except StorageError (List SecretRow) → Response
  | .ok rows => .list (.ok rows)
  | .error e => .list (.failure ("Failed to list secrets: " ++ e.message))

/-- The answer to a request to keep a secret. -/
def Response.ofWritten : Except StorageError Unit → Response
  | .ok () => .set .ok
  | .error e => .set (.failure ("Failed to set secret: " ++ e.message))

/-- A node: the name of its service, and its key. -/
structure Node where
  serviceName : String
  key : SigningKey
  deriving DecidableEq

namespace Node

/-- The node of a valid configuration. -/
def ofConfig (c : Config) : Except ConfigError Node := c.validate.map fun key => ⟨c.serviceName, key⟩

def address (n : Node) : Address := n.key.address

/-! ### Handling a message -/

/-- The signed answer to a message: it repeats the ids and the method, and this node is its sender. -/
def reply (n : Node) (request : MessageBody) (r : Response) : Except MessageError Message :=
  Message.sign ⟨"", { request with sender := n.address.toHex }.withPayload r.toJson⟩ n.key

/-- The answer, if it may be sent. -/
def outgoing (n : Node) (request : MessageBody) (r : Response) (v : View) : Except NodeError Message := do
  if v.cancelled then throw .cancelled
  let m ← (n.reply request r).mapError .message
  if !v.attached then throw (.transport .notSet)
  return m

/-- The turn in which a response is known. -/
def answer (n : Node) (d : Delivery) (r : Response) (v : View) : Turn :=
  let body := d.message.body
  let warning := if r.isSuccess then [] else [.answeringFailure d.gateway body.messageId body.method]
  match n.outgoing body r v with
  | .ok m => ⟨warning, some (.send ⟨d.gateway, m⟩)⟩
  | .error e => ⟨warning ++ [.notSent d.gateway e.text], none⟩

/-- The turn in which the sender is admitted. -/
def serve (n : Node) (d : Delivery) (sender : Address) (v : View) : Turn :=
  let body := d.message.body
  let handling := .handling d.gateway body.method
  match Method.ofName? body.method with
  | none => ⟨[handling, .unsupportedMethod d.gateway body.method], none⟩
  | some method =>
    match method.decode body.payloadBytes with
    | .ok .list => ⟨[handling], some (.list sender)⟩
    | .ok (.set r) => ⟨[handling], some (.put (r.toWrite sender))⟩
    | .error e =>
      let turn := n.answer d (.badRequest method e) v
      { turn with events := handling :: turn.events }

/-- The first turn. -/
def receive (d : Delivery) : Turn :=
  let sender := d.message.body.sender
  match Address.parse sender with
  | .ok a => ⟨[], some (.allow a)⟩
  | .error e => .last (.invalidSender d.gateway sender e.message)

/-- The turn after a call; there is no answer if the request was cancelled. -/
def resume (n : Node) (d : Delivery) (v : View) : (call : Call) → Option call.Answer → Turn
  | .allow a, none => .last (.cancelledInAdmission d.gateway a)
  | .allow a, some false => .last (.notAllowed d.gateway a)
  | .allow a, some true => n.serve d a v
  | .list _, none => .last (.cancelledInDispatch d.gateway d.message.body.messageId d.message.body.method)
  | .list _, some rows => n.answer d (.ofRows rows) v
  | .put _, none => .last (.cancelledInDispatch d.gateway d.message.body.messageId d.message.body.method)
  | .put _, some written => n.answer d (.ofWritten written) v
  | .send _, none => .last (.notSent d.gateway NodeError.cancelled.text)
  | .send _, some (.error e) => .last (.notSent d.gateway (NodeError.transport e).text)
  | .send _, some (.ok ()) =>
    .last (.sent d.gateway d.message.body.messageId d.message.body.donId d.message.body.method)

end Node

/-! ### Starting and stopping -/

/-- How far a node is, and the allowlist that it starts and stops. -/
structure Station where
  state : ServiceState := .unstarted
  allowlist : Allowlist := {}

namespace Station

def isHealthy (s : Station) : Bool := s.state = .started

/-- Starts the node and its allowlist, once. -/
def start (s : Station) (n : Node) : Station × List Event × Except NodeError Unit :=
  match Attempt.start.begin n.serviceName s.state with
  | .error e => (s, [], .error (.lifecycle e))
  | .ok _ =>
    match s.allowlist.start with
    | .error e => ({ s with state := Attempt.start.target false }, [], .error (.allowlist e))
    | .ok (allowlist, events) =>
      (⟨Attempt.start.target true, allowlist⟩, events ++ [.nodeStarted n.serviceName n.address], .ok ())

/-- Stops a started node and its allowlist, once. -/
def close (s : Station) (n : Node) : Station × List Event × Except NodeError Unit :=
  match Attempt.stop.begin n.serviceName s.state with
  | .error e => (s, [], .error (.lifecycle e))
  | .ok _ =>
    match s.allowlist.close with
    | .error e => ({ s with state := Attempt.stop.target false }, [], .error (.allowlist e))
    | .ok (allowlist, events) =>
      (⟨Attempt.stop.target true, allowlist⟩, events ++ [.nodeStopped n.serviceName], .ok ())

end Station

end SecretsGateway
