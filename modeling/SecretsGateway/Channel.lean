/-!
# Bounded channels

A channel holds at most `capacity` values between its senders and its one receiver, who gets them in the order in which
they were sent. A sender waits while the channel is full, and fails once the receiver is gone.
-/

namespace SecretsGateway

/-- A first-in, first-out queue of bounded length. -/
structure Channel (α : Type) where
  capacity : Nat
  queue : List α := []
  /-- The receiver is still there. -/
  isOpen : Bool := true
  length_queue_le : queue.length ≤ capacity := by simp

/-- What becomes of an attempt to send. -/
inductive Channel.Sending (α : Type) where
  | sent (c : Channel α)
  /-- There is no room; the sender has to try again. -/
  | full
  | closed

namespace Channel

variable {α : Type}

/-- Sends a value, if there is room and a receiver. -/
def send (c : Channel α) (a : α) : Sending α :=
  if !c.isOpen then .closed
  else if h : c.queue.length < c.capacity then
    .sent { c with queue := c.queue ++ [a], length_queue_le := Nat.le_trans (Nat.le_of_eq List.length_append) h }
  else .full

/-- The oldest value, and the channel without it. -/
def receive (c : Channel α) : Option α × Channel α :=
  (c.queue.head?, { c with
    queue := c.queue.tail
    length_queue_le := Nat.le_trans (by simp) c.length_queue_le })

/-- The channel after its receiver has taken everything. -/
def drained (c : Channel α) : Channel α := { c with queue := [], length_queue_le := by simp }

/-- The channel after its receiver has gone, with everything that it had not taken. -/
def close (c : Channel α) : Channel α := { c.drained with isOpen := false }

end Channel

end SecretsGateway
