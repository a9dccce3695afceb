import SecretsGateway.Proofs.Store.History
import SecretsGateway.World

/-!
# Looks at a world

What a look at a call does to a world with a store and a channel, said once for all calls (`World.polled`). Asking the
allowlist and listing change nothing, a write is a use of the store, and a message that is sent stands at the end of the
queue, unless there is no room or no receiver.
-/

namespace SecretsGateway

namespace Channel

variable {α : Type} {c c' : Channel α} {a : α}

/-- What is sent stands at the end of the queue, and nothing else changes. -/
theorem eq_of_send (h : c.send a = .sent c') :
    c'.queue = c.queue ++ [a] ∧ c'.capacity = c.capacity ∧ c'.isOpen = c.isOpen := by
  unfold send at h
  split at h
  · cases h
  · split at h
    · cases h
      exact ⟨rfl, rfl, rfl⟩
    · cases h

private theorem exists_send (hopen : c.isOpen = true) (hroom : c.queue.length < c.capacity) : ∃ c', c.send a = .sent c' := by
  unfold send
  rw [hopen]
  exact ⟨_, dif_pos hroom⟩

/-- What the receiver takes and what is left make up the queue. -/
theorem receive_append (c : Channel α) : c.receive.1.toList ++ c.receive.2.queue = c.queue := by
  obtain ⟨capacity, queue, isOpen, hle⟩ := c
  cases queue <;> rfl

end Channel

namespace World

variable {w : World} {store : Store} {clock : Int64} {channel : Channel Delivery}

/-- What a look at a call can do. -/
inductive Polled (w : World) (store : Store) (clock : Int64) (channel : Channel Delivery) :
    (call : Call) → World → Option call.Answer → Prop
  | allow (a : Address) : Polled w store clock channel (.allow a) w (some (w.station.allowlist.allows a))
  | list (owner : Address) : Polled w store clock channel (.list owner) w (some (.ok (store.list clock owner)))
  | put (write : SecretWrite) :
      Polled w store clock channel (.put write) { w with storage := .memory (store.use ⟨clock, .put write⟩) clock }
        (some ((store.put clock write).map fun _ => ()))
  | sent {out : Delivery} {channel' : Channel Delivery} : channel.send out = .sent channel' →
      Polled w store clock channel (.send out) { w with link := some channel' } (some (.ok ()))
  | full {out : Delivery} : channel.send out = .full → Polled w store clock channel (.send out) w none
  | closed {out : Delivery} : channel.send out = .closed →
      Polled w store clock channel (.send out) w (some (.error .closed))

theorem polled (hstorage : w.storage = .memory store clock) (hlink : w.link = some channel) (root : Root) (begun : Bool)
    (call : Call) : Polled w store clock channel call (w.poll root begun call).1 (w.poll root begun call).2.answer := by
  cases call with
  | allow a => exact .allow a
  | list owner =>
    unfold poll
    rw [hstorage]
    exact .list owner
  | put write =>
    have hput : Polled w store clock channel (.put write) { w with storage := .memory (store.use ⟨clock, .put write⟩) clock }
        (some ((store.put clock write).map fun _ => ())) := .put write
    unfold poll
    rw [hstorage]
    dsimp only
    cases hresult : store.put clock write with
    | ok store' =>
      rw [Store.use_of_put_ok hresult, hresult] at hput
      exact hput
    | error e =>
      rw [Store.use_of_put_error hresult, hresult, ← hstorage] at hput
      exact hput
  | send out =>
    unfold poll transmit
    rw [hlink]
    dsimp only
    cases hsend : channel.send out with
    | sent channel' => exact .sent hsend
    | full => exact .full hsend
    | closed => exact .closed hsend

/-- A store says to a look at a write what it says to a put. -/
theorem answer_poll_put (hstorage : w.storage = .memory store clock) (root : Root) (begun : Bool) (write : SecretWrite) :
    (w.poll root begun (.put write)).2.answer = some ((store.put clock write).map fun _ => ()) := by
  unfold poll
  rw [hstorage]
  dsimp only
  cases store.put clock write <;> rfl

/-- A write that is accepted is kept, and reported. -/
theorem poll_put_of_ok {write : SecretWrite} {kept : Store} (hstorage : w.storage = .memory store clock)
    (hput : store.put clock write = .ok kept) (root : Root) (begun : Bool) :
    w.poll root begun (.put write) = ({ w with storage := .memory kept clock }, ⟨[write.event], some (.ok ())⟩) := by
  unfold poll
  rw [hstorage]
  simp only [hput]

/-- A message that finds room is handed over at once. -/
theorem poll_send_of_room (hlink : w.link = some channel) (hopen : channel.isOpen = true)
    (hroom : channel.queue.length < channel.capacity) (root : Root) (begun : Bool) (out : Delivery) :
    ∃ c, c.queue = channel.queue ++ [out] ∧ c.capacity = channel.capacity ∧ c.isOpen = channel.isOpen ∧
      w.poll root begun (.send out) = ({ w with link := some c }, ⟨[], some (.ok ())⟩) := by
  obtain ⟨c, hsend⟩ := Channel.exists_send (a := out) hopen hroom
  obtain ⟨hqueue, hcapacity, hopen'⟩ := Channel.eq_of_send hsend
  refine ⟨c, hqueue, hcapacity, hopen', ?_⟩
  unfold poll transmit
  rw [hlink]
  simp only [hsend]
  rfl

namespace Polled

variable {w' : World}

theorem timeline_eq {call : Call} {answer : Option call.Answer} (h : Polled w store clock channel call w' answer) :
    w'.timeline = w.timeline := by
  cases h <;> rfl

theorem of_list {owner : Address} {rows : Option (Except StorageError (List SecretRow))}
    (h : Polled w store clock channel (.list owner) w' rows) : w' = w ∧ rows = some (.ok (store.list clock owner)) := by
  cases h
  exact ⟨rfl, rfl⟩

theorem of_put {write : SecretWrite} {result : Option (Except StorageError Unit)}
    (h : Polled w store clock channel (.put write) w' result) :
    w' = { w with storage := .memory (store.use ⟨clock, .put write⟩) clock } ∧
      result = some ((store.put clock write).map fun _ => ()) := by
  cases h
  exact ⟨rfl, rfl⟩

end Polled

end World

end SecretsGateway
