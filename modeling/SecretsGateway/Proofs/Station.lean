import Mathlib.Data.List.Induction
import SecretsGateway.Node

/-!
# The lives of a node and of its allowlist

A node starts once and stops once, and it starts and closes its allowlist on the way; the allowlist can be started and closed
again and again, also past the node. How a call goes is said once for each way (`Station.start_of_waiting`,
`Station.close_of_running` and the like), and what holds after any number of calls follows from one call to the next:
whether the node has been started before, that a failed start and a stop are final, and, as long as nobody goes past the
node, that the allowlist runs exactly while the node is healthy (`Station.Coupled`). All this is put together in
`Station.start_close`.
-/

namespace SecretsGateway

/-- A call to a node, or past it to its allowlist. -/
inductive StationCall where
  | start
  | close
  | startList
  | closeList

/-- The call goes to the node. -/
def StationCall.isOfNode : StationCall → Bool
  | start | close => true
  | startList | closeList => false

namespace Station

/-- The station after a call. -/
def step (n : Node) (s : Station) : StationCall → Station
  | .start => (s.start n).1
  | .close => (s.close n).1
  | .startList =>
    match s.allowlist.start with
    | .ok (allowlist, _) => { s with allowlist }
    | .error _ => s
  | .closeList =>
    match s.allowlist.close with
    | .ok (allowlist, _) => { s with allowlist }
    | .error _ => s

/-- The station after some calls. -/
def after (n : Node) (s : Station) (calls : List StationCall) : Station := calls.foldl (step n) s

variable {n : Node} {s : Station} {c : StationCall} {calls : List StationCall}

private theorem start_of_begun (h : s.state ≠ .unstarted) :
    s.start n = (s, [], .error (.lifecycle (.alreadyStarted n.serviceName s.state))) := by
  rw [start, Attempt.begin, if_neg (show s.state ≠ Attempt.start.source from h)]
  rfl

private theorem start_of_running (h : s.state = .unstarted) (hrunning : s.allowlist.running = true) :
    s.start n = ({ s with state := .startFailed }, [], .error (.allowlist .alreadyStarted)) := by
  rw [start, Attempt.begin, if_pos (show s.state = Attempt.start.source from h), Allowlist.start, if_pos hrunning]
  rfl

theorem start_of_waiting (h : s.state = .unstarted) (hrunning : s.allowlist.running = false) :
    s.start n = (⟨.started, { s.allowlist with running := true }⟩,
      [.allowlistStarted s.allowlist.allowed.length, .nodeStarted n.serviceName n.address], .ok ()) := by
  rw [start, Attempt.begin, if_pos (show s.state = Attempt.start.source from h), Allowlist.start,
    if_neg (Bool.not_eq_true _ ▸ hrunning)]
  rfl

private theorem close_of_not_started (h : s.state ≠ .started) :
    s.close n = (s, [], .error (.lifecycle (.notStarted n.serviceName s.state))) := by
  rw [close, Attempt.begin, if_neg (show s.state ≠ Attempt.stop.source from h)]
  rfl

theorem close_of_running (h : s.state = .started) (hrunning : s.allowlist.running = true) :
    s.close n = (⟨.stopped, { s.allowlist with running := false }⟩,
      [.allowlistClosed, .nodeStopped n.serviceName], .ok ()) := by
  rw [close, Attempt.begin, if_pos (show s.state = Attempt.stop.source from h), Allowlist.close, if_pos hrunning]
  rfl

private theorem close_of_closed (h : s.state = .started) (hrunning : s.allowlist.running = false) :
    s.close n = ({ s with state := .stopped }, [], .error (.allowlist .notRunning)) := by
  rw [close, Attempt.begin, if_pos (show s.state = Attempt.stop.source from h), Allowlist.close,
    if_neg (Bool.not_eq_true _ ▸ hrunning)]
  rfl

private theorem state_step_of_not_isOfNode (h : c.isOfNode = false) : (s.step n c).state = s.state := by
  cases c with
  | start | close => cases h
  | startList | closeList =>
    rw [step]
    split <;> rfl

private theorem state_step_start (n : Node) (s : Station) : (s.step n .start).state ≠ .unstarted := by
  rw [step]
  by_cases hstate : s.state = .unstarted
  · cases hrunning : s.allowlist.running with
    | true => simp [start_of_running hstate hrunning]
    | false => simp [start_of_waiting hstate hrunning]
  · rw [start_of_begun hstate]
    exact hstate

private theorem state_step_close (n : Node) (s : Station) :
    (s.step n .close).state = if s.state = .started then .stopped else s.state := by
  rw [step]
  split
  · next hstate =>
    cases hrunning : s.allowlist.running with
    | true => rw [close_of_running hstate hrunning]
    | false => rw [close_of_closed hstate hrunning]
  · next hstate => rw [close_of_not_started hstate]

/-- A node that has not been started and is not started now is not started after a call. -/
private theorem state_step_eq_unstarted_iff : (s.step n c).state = .unstarted ↔ s.state = .unstarted ∧ c ≠ .start := by
  cases c with
  | start => simp [state_step_start]
  | close =>
    rw [state_step_close]
    split
    · next hstate => simp [hstate]
    · simp
  | startList | closeList =>
    rw [state_step_of_not_isOfNode rfl]
    simp

/-- The states that a node does not leave. -/
def IsFinal (state : ServiceState) : Prop := state = .startFailed ∨ state = .stopped

private theorem state_step_of_isFinal (h : IsFinal s.state) : (s.step n c).state = s.state := by
  cases c with
  | start =>
    rw [step, start_of_begun]
    rcases h with h | h <;> rw [h] <;> decide
  | close =>
    rw [state_step_close, if_neg]
    rcases h with h | h <;> rw [h] <;> decide
  | startList | closeList => exact state_step_of_not_isOfNode rfl

/-- The allowlist runs exactly while the node is healthy. -/
def Coupled (s : Station) : Prop := s.allowlist.running = s.isHealthy

private theorem Coupled.step (h : s.Coupled) (hc : c.isOfNode = true) : (s.step n c).Coupled := by
  cases c with
  | startList | closeList => cases hc
  | start =>
    rw [Station.step]
    by_cases hstate : s.state = .unstarted
    · have hrunning : s.allowlist.running = false := by rw [h, isHealthy, hstate]; decide
      rw [start_of_waiting hstate hrunning]
      rfl
    · rw [start_of_begun hstate]
      exact h
  | close =>
    rw [Station.step]
    by_cases hstate : s.state = .started
    · have hrunning : s.allowlist.running = true := by rw [h, isHealthy, hstate]; decide
      rw [close_of_running hstate hrunning]
      rfl
    · rw [close_of_not_started hstate]
      exact h

private theorem after_concat (n : Node) (s : Station) (calls : List StationCall) (c : StationCall) :
    s.after n (calls ++ [c]) = (s.after n calls).step n c := by
  rw [after, List.foldl_append]
  rfl

/-- A node is unstarted exactly until its first start. -/
private theorem state_after_eq_unstarted_iff (h : s.state = .unstarted) :
    (s.after n calls).state = .unstarted ↔ .start ∉ calls := by
  induction calls using List.reverseRecOn with
  | nil => simp [after, h]
  | append_singleton calls c ih =>
    rw [after_concat, state_step_eq_unstarted_iff, ih, List.mem_append, List.mem_singleton, not_or, ne_comm]

private theorem state_after_of_isFinal (h : IsFinal s.state) : (s.after n calls).state = s.state := by
  induction calls using List.reverseRecOn with
  | nil => rfl
  | append_singleton calls c ih =>
    rw [after_concat, state_step_of_isFinal (by rw [ih]; exact h), ih]

private theorem Coupled.after (h : s.Coupled) (hcalls : ∀ c ∈ calls, c.isOfNode = true) : (s.after n calls).Coupled := by
  induction calls using List.reverseRecOn with
  | nil => exact h
  | append_singleton calls c ih =>
    rw [after_concat]
    have hlast := hcalls c (List.mem_append_right _ (List.mem_singleton_self c))
    exact (ih fun c hc => hcalls c (List.mem_append_left _ hc)).step hlast

/-- The next start and the next close after any calls to a node and, past it, to its allowlist. A start succeeds exactly if it
is the first one and the allowlist does not run. A later start is refused and changes nothing; a first one that finds the
allowlist running fails with the refusal of the allowlist, which runs on, and the start of the node has failed for good. A
close of a node that is not started is refused and changes nothing; of a started one it leaves the node stopped and the
allowlist closed, and it fails exactly if the allowlist had been closed before. If nobody goes past the node, and the allowlist
did not run at first, it runs exactly while the node is healthy, and it never runs again once the node is stopped. -/
theorem start_close (n : Node) (l : Allowlist) (calls : List StationCall) :
    let s := after n ⟨.unstarted, l⟩ calls
    (∀ next events result, s.start n = (next, events, result) →
      (result = .ok () ↔ .start ∉ calls ∧ s.allowlist.running = false) ∧
      (.start ∈ calls →
        result = .error (.lifecycle (.alreadyStarted n.serviceName s.state)) ∧ next = s ∧ events = []) ∧
      (.start ∉ calls → s.allowlist.running = true →
        result = .error (.allowlist .alreadyStarted) ∧ next.allowlist = s.allowlist ∧ events = [] ∧
          ∀ later, (next.after n later).state = .startFailed)) ∧
    (∀ next events result, s.close n = (next, events, result) →
      (s.state ≠ .started →
        result = .error (.lifecycle (.notStarted n.serviceName s.state)) ∧ next = s ∧ events = []) ∧
      (s.state = .started → next.state = .stopped ∧ next.allowlist.running = false ∧
        result = if s.allowlist.running then .ok () else .error (.allowlist .notRunning))) ∧
    (l.running = false → (∀ c ∈ calls, c.isOfNode = true) →
      s.allowlist.running = s.isHealthy ∧
        (s.state = .stopped → ∀ later, (∀ c ∈ later, c.isOfNode = true) → (s.after n later).allowlist.running = false)) := by
  intro s
  have hunstarted : s.state = .unstarted ↔ .start ∉ calls := state_after_eq_unstarted_iff rfl
  refine ⟨fun next events result h => ?_, fun next events result h => ?_, fun hl hcalls => ?_⟩
  · by_cases hcalls : .start ∈ calls
    · have hbegun : s.state ≠ .unstarted := fun hstate => hunstarted.1 hstate hcalls
      rw [start_of_begun hbegun] at h
      cases h
      simp [hcalls]
    · have hstate := hunstarted.2 hcalls
      cases hrunning : s.allowlist.running with
      | true =>
        rw [start_of_running hstate hrunning] at h
        cases h
        exact ⟨by simp, fun hmem => absurd hmem hcalls, fun _ _ => ⟨rfl, rfl, rfl, fun _ => state_after_of_isFinal (.inl rfl)⟩⟩
      | false =>
        rw [start_of_waiting hstate hrunning] at h
        cases h
        simp [hcalls]
  · by_cases hstate : s.state = .started
    · cases hrunning : s.allowlist.running with
      | true =>
        rw [close_of_running hstate hrunning] at h
        cases h
        simp [hstate]
      | false =>
        rw [close_of_closed hstate hrunning] at h
        cases h
        simp [hstate, hrunning]
    · rw [close_of_not_started hstate] at h
      cases h
      simp [hstate]
  · have hstart : Coupled ⟨.unstarted, l⟩ := hl
    have hcoupled : s.Coupled := hstart.after hcalls
    refine ⟨hcoupled, fun hstopped later hlater => ?_⟩
    have hstays : (s.after n later).state = .stopped := by
      rw [state_after_of_isFinal (.inr hstopped), hstopped]
    rw [hcoupled.after hlater, isHealthy, hstays]
    decide

end Station

end SecretsGateway
