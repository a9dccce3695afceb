import SecretsGateway.Allowlist
import SecretsGateway.Lifecycle
import SecretsGateway.Message
import SecretsGateway.Secret.Wire
import SecretsGateway.Text.Blank

/-!
# Configuration of a node

A node has a name for its service, a secret key, and perhaps the address that the key must have. `Config.signer` gives
the key or the first thing that is wrong with it. Here are also the errors that a node reports as a whole.
-/

namespace SecretsGateway

/-- Why an answer cannot be handed to the gateway. -/
inductive TransportError where
  | notSet
  | closed
  deriving DecidableEq, Repr

def TransportError.message : TransportError → String
  | .notSet => "gateway connector not set"
  | .closed => "gateway connection closed"

/-- What is wrong with a configuration. -/
inductive ConfigError where
  | emptyName
  | missingKey
  | badKey (e : SignatureError)
  | addressMismatch (configured derived : Address)
  /-- Anything else, in its own words. -/
  | other (text : String)
  deriving DecidableEq

def ConfigError.message : ConfigError → String
  | .emptyName => "service_name cannot be empty"
  | .missingKey => "private_key is required"
  | .badKey e => "private_key: " ++ e.message
  | .addressMismatch configured derived =>
    s!"node_address {configured} does not match private key address {derived}"
  | .other text => text

/-- Any error of a node. -/
inductive NodeError where
  | config (e : ConfigError)
  | lifecycle (e : LifecycleError)
  | allowlist (e : AllowlistError)
  | message (e : MessageError)
  | signature (e : SignatureError)
  | transport (e : TransportError)
  | cancelled
  deriving DecidableEq

def NodeError.text : NodeError → String
  | .config e => "Configuration error: " ++ e.message
  | .lifecycle e => e.message
  | .allowlist e => "Allowlist error: " ++ e.message
  | .message e => "Envelope error: " ++ e.message
  | .signature e => "Signer error: " ++ e.message
  | .transport e => "Transport error: " ++ e.message
  | .cancelled => "request cancelled"

/-- The configuration of a node. -/
structure Config where
  serviceName : String
  nodeAddress : Option Address
  /-- Hexadecimal; never written. -/
  privateKey : String
  deriving DecidableEq

namespace Config

/-- A named service without key. -/
def standard : Config := ⟨"FunctionsConnectorHandler", none, ""⟩

/-- The standard configuration with a key. -/
def ofKey (privateKey : String) : Config := { standard with privateKey }

/-- The key, if there is one, it is valid, and it has the configured address. -/
def signer (c : Config) : Except ConfigError SigningKey :=
  if c.privateKey = "" then .error .missingKey
  else match SigningKey.ofHex c.privateKey with
    | .error e => .error (.badKey e)
    | .ok key =>
      match c.nodeAddress with
      | none => .ok key
      | some configured =>
        if configured = key.address then .ok key else .error (.addressMismatch configured key.address)

/-- The key of a configuration whose service has a name that is not blank. -/
def validate (c : Config) : Except ConfigError SigningKey :=
  if Text.isAllBlank c.serviceName then .error .emptyName else c.signer

/-- The JSON form, without the key. -/
def toJson (c : Config) : Json.Value :=
  .object [("service_name", .text c.serviceName),
    ("node_address", match c.nodeAddress with | some a => .text a.toHex | none => .null)]

/-- A configuration as it may be shown: the key is struck out. -/
def summary (c : Config) : String :=
  let name := Text.quoted c.serviceName
  let address := match c.nodeAddress with
    | some a => s!"Some(Address({a}))"
    | none => "None"
  s!"ConnectorConfig \x7b service_name: {name}, node_address: {address}, private_key: <redacted> \x7d"

/-- The members read so far; the outer option of `nodeAddress` tells whether the member was there. -/
structure Draft where
  serviceName : Option String := none
  nodeAddress : Option (Option Address) := none
  privateKey : Option String := none

/-- The form of a configuration; an absent member has its standard value. -/
def shape : Json.Shape Draft Config where
  name := "struct ConnectorConfig"
  start := {}
  members := [
    .of "service_name" (Json.string "a string") Draft.serviceName fun d a => { d with serviceName := some a },
    .of "node_address" (Json.optional Address.read) Draft.nodeAddress fun d a => { d with nodeAddress := some a },
    .of "private_key" (Json.string "a string") Draft.privateKey fun d a => { d with privateKey := some a }]
  finish d := .ok ⟨d.serviceName.getD standard.serviceName, d.nodeAddress.getD standard.nodeAddress,
    d.privateKey.getD standard.privateKey⟩

def decode (document : Bytes) : Except Json.Error Config := Json.decode shape.read document

end Config

end SecretsGateway
