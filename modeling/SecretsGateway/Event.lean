import SecretsGateway.Address

/-!
# Events

What a node reports while it works. Each event has a level, a wording and named fields; none of them ever holds the bytes
of a secret or of its signature.
-/

namespace SecretsGateway

/-- How much an event matters. -/
inductive Level where
  | error
  | warn
  | info
  | debug
  deriving DecidableEq, Repr

def Level.name : Level → String
  | .error => "ERROR"
  | .warn => "WARN"
  | .info => "INFO"
  | .debug => "DEBUG"

/-- A report of a node. -/
inductive Event where
  | stored (owner : Address) (slot version : UInt64)
  | allowlistStarted (entries : Nat)
  | allowlistClosed
  | nodeStarted (service : String) (address : Address)
  | nodeStopped (service : String)
  | invalidSender (gateway sender reason : String)
  | notAllowed (gateway : String) (address : Address)
  | cancelledInAdmission (gateway : String) (address : Address)
  | handling (gateway method : String)
  | unsupportedMethod (gateway method : String)
  | cancelledInDispatch (gateway messageId method : String)
  | answeringFailure (gateway messageId method : String)
  | sent (gateway messageId donId method : String)
  | notSent (gateway reason : String)
  deriving DecidableEq

namespace Event

def level : Event → Level
  | stored .. | handling .. | sent .. => .debug
  | allowlistStarted .. | allowlistClosed | nodeStarted .. | nodeStopped .. => .info
  | cancelledInAdmission .. | cancelledInDispatch .. | answeringFailure .. => .warn
  | invalidSender .. | notAllowed .. | unsupportedMethod .. | notSent .. => .error

def message : Event → String
  | stored .. => "Stored secret"
  | allowlistStarted .. => "Allowlist started"
  | allowlistClosed => "Allowlist closed"
  | nodeStarted .. => "Connector handler started"
  | nodeStopped .. => "Connector handler stopped"
  | invalidSender .. => "Invalid sender address, dropping request"
  | notAllowed .. => "Allowlist prevented the request from this address"
  | cancelledInAdmission .. => "Request cancelled during admission"
  | handling .. => "Handling gateway request"
  | unsupportedMethod .. => "Unsupported method"
  | cancelledInDispatch .. => "Request cancelled, dropping response"
  | answeringFailure .. => "Answering with error payload"
  | sent .. => "Sent to gateway"
  | notSent .. => "Failed to send response to gateway"

/-- The fields of the event, as texts. -/
def fields : Event → List (String × String)
  | stored owner slot version => [("owner", owner.toHex), ("slot_id", toString slot), ("version", toString version)]
  | allowlistStarted entries => [("entries", toString entries)]
  | allowlistClosed => []
  | nodeStarted service address => [("service", service), ("node_address", address.toHex)]
  | nodeStopped service => [("service", service)]
  | invalidSender gateway sender reason => [("gateway_id", gateway), ("sender", sender), ("error", reason)]
  | notAllowed gateway address => [("gateway_id", gateway), ("address", address.toHex)]
  | cancelledInAdmission gateway address => [("gateway_id", gateway), ("address", address.toHex)]
  | handling gateway method => [("gateway_id", gateway), ("method", method)]
  | unsupportedMethod gateway method => [("gateway_id", gateway), ("method", method)]
  | cancelledInDispatch gateway messageId method =>
    [("gateway_id", gateway), ("message_id", messageId), ("method", method)]
  | answeringFailure gateway messageId method =>
    [("gateway_id", gateway), ("message_id", messageId), ("method", method)]
  | sent gateway messageId donId method =>
    [("gateway_id", gateway), ("message_id", messageId), ("don_id", donId), ("method", method)]
  | notSent gateway reason => [("gateway_id", gateway), ("error", reason)]

end Event

end SecretsGateway
