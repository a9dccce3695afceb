import SecretsGateway.Message.Wire
import SecretsGateway.Proofs.Exchange.Story
import SecretsGateway.Proofs.Text.Utf8
import SecretsGateway.Schedule
import SecretsGateway.Service
import SecretsGateway.Proofs.Message.Layout
import SecretsGateway.Proofs.Exchange.Calls
import SecretsGateway.Proofs.Crypto.Keccak
import SecretsGateway.Proofs.Exchange.Cancellation
import SecretsGateway.Proofs.Json.Scalar
import SecretsGateway.Proofs.Json.Skip
import SecretsGateway.Proofs.Json.Record
import SecretsGateway.Proofs.Response
import SecretsGateway.Proofs.Message.Wire
import SecretsGateway.Proofs.Signing
import SecretsGateway.Proofs.Message.Signed
import SecretsGateway.Proofs.Exchange.Answers
import SecretsGateway.Proofs.Store.Kept
import SecretsGateway.Proofs.Store.History
import SecretsGateway.Proofs.Message.Tampering
import SecretsGateway.Proofs.Message.Survival
import SecretsGateway.Proofs.Traffic.Run
import SecretsGateway.Proofs.World
import SecretsGateway.Proofs.Traffic.Order
import SecretsGateway.Proofs.Store.Owner
import SecretsGateway.Proofs.Traffic.Isolation
import SecretsGateway.Proofs.Store.Origin
import SecretsGateway.Proofs.Base64
import SecretsGateway.Proofs.Secret.Envelope
import SecretsGateway.Proofs.Message.Received
import SecretsGateway.Proofs.Exchange.Writes
import SecretsGateway.Proofs.Store.Latest
import SecretsGateway.Proofs.Service.Callers
import SecretsGateway.Proofs.Station
import SecretsGateway.Proofs.Store.Outline
import SecretsGateway.Proofs.Exchange.Mirror
import SecretsGateway.Proofs.Secrecy
import SecretsGateway.Proofs.Service.Life
import SecretsGateway.Proofs.Store.Decision
import SecretsGateway.Proofs.Store.Window
import SecretsGateway.Proofs.Exchange.Report
import SecretsGateway.Proofs.Exchange.Log
import SecretsGateway.Proofs.Exchange.Drop
import SecretsGateway.Proofs.Store.Readers
import SecretsGateway.Proofs.Store.Purge
import SecretsGateway.Proofs.Crypto.Absorption
import SecretsGateway.Proofs.Signing.Judgement
import SecretsGateway.Proofs.Signing.Recovery
import SecretsGateway.Proofs.Hex
import SecretsGateway.Proofs.Message.Verdict
import SecretsGateway.Proofs.Payload
import SecretsGateway.Proofs.Scope.Agreement
import SecretsGateway.Proofs.Exchange.Sender
import SecretsGateway.Proofs.Config
import SecretsGateway.Proofs.Message.Offsets
