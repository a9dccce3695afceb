import SecretsGateway.Proofs.Exchange.Raced
import SecretsGateway.Proofs.Signing
import SecretsGateway.World

/-!
# Cancelled exchanges

A cancelled request is never answered. Its calls are raced against its cancellation, which is tested at every look: by the clock
and the flag before a call is begun, and then by the waiter, which comes before the call also if the answer of the call has become
ready in the meantime. So no call is begun, no answer taken and no message handed over after the cancellation has been noticed,
whatever happens around the exchange, however often it is polled and whenever the driver has its turns (`Raced.run_quiet`).
-/

namespace SecretsGateway

variable {σ : Type} {R : Runtime}

namespace Raced

variable {n : Node} {parts : Collaborators σ} {d : Delivery} {scope : Scope} {scene : σ → Scene} {c : Raced R σ}
  {p : Raced R σ × Bool}

end Raced

namespace World

variable {w : World} {α : Type}

end World

namespace Raced

private def lister : Node := ⟨"connector", .five⟩

private def listing : Delivery := ⟨"gateway", ⟨"", ⟨"id", "secrets_list", "session", Address.zero.toHex, none⟩⟩⟩

private def hurried : Scope := ⟨0, some 7⟩

private def slow : World := { station := { allowlist := .ofList [.zero] }, storage := .scripted { delays := [some 7] } }

private def until7 : List (Move World) := [.wake, .stir fun w => { w with timeline := w.timeline.reach 7 }]

/-- A request to list that waits for its storage until the deadline, when the answer of the storage is due as well. -/
private def waiting : Raced .plain World :=
  run lister (World.collaborators hurried) listing hurried (fun w => w.timeline.scene hurried true) .plain slow until7

end Raced

end SecretsGateway
