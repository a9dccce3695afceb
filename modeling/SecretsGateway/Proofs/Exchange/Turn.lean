import SecretsGateway.Exchange

/-!
# Turns of a node

What a node calls next, turn by turn: one statement for every way in which `Node.receive`, `Node.serve`, `Node.answer` and
`Node.resume` can go. Every answer and every cancellation brings an exchange closer to its end (`Stage.rank_after_resume`).
-/

namespace SecretsGateway

namespace Node

variable {n : Node} {d : Delivery} {v : View}

theorem next_receive_of_ok {a : Address} (h : Address.parse d.message.body.sender = .ok a) :
    (receive d).next = some (.allow a) := by
  simp only [receive, h]

theorem next_receive_of_error {e : AddressError} (h : Address.parse d.message.body.sender = .error e) :
    (receive d).next = none := by
  simp only [receive, h, Turn.last]

theorem next_answer_of_ok {r : Response} {m : Message} (h : n.outgoing d.message.body r v = .ok m) :
    (n.answer d r v).next = some (.send ⟨d.gateway, m⟩) := by
  simp only [answer, h]

theorem next_answer_of_error {r : Response} {e : NodeError} (h : n.outgoing d.message.body r v = .error e) :
    (n.answer d r v).next = none := by
  simp only [answer, h]

variable {a : Address} {method : Method}

theorem next_serve_of_none (h : Method.ofName? d.message.body.method = none) : (n.serve d a v).next = none := by
  simp only [serve, h]

theorem next_serve_of_list (h : Method.ofName? d.message.body.method = some method)
    (hp : method.decode d.message.body.payloadBytes = .ok .list) : (n.serve d a v).next = some (.list a) := by
  simp only [serve, h, hp]

theorem next_serve_of_set {r : SetRequest} (h : Method.ofName? d.message.body.method = some method)
    (hp : method.decode d.message.body.payloadBytes = .ok (.set r)) :
    (n.serve d a v).next = some (.put (r.toWrite a)) := by
  simp only [serve, h, hp]

theorem next_serve_of_error {e : RequestError} (h : Method.ofName? d.message.body.method = some method)
    (hp : method.decode d.message.body.payloadBytes = .error e) :
    (n.serve d a v).next = (n.answer d (.badRequest method e) v).next := by
  simp only [serve, h, hp]

private theorem next_resume_none (call : Call) : (n.resume d v call none).next = none := by
  cases call <;> rfl

theorem next_resume_send {out : Delivery} (a : Option (Except TransportError Unit)) :
    (n.resume d v (.send out) a).next = none := by
  rcases a with _ | _ | _ <;> rfl

end Node

namespace Stage

theorem after_of_some {turn : Turn} {call : Call} (h : turn.next = some call) : after turn = asking call false := by
  rw [after, h]

private theorem after_of_none {turn : Turn} (h : turn.next = none) : after turn = ended := by
  rw [after, h]

theorem after_eq_ended_iff {turn : Turn} : after turn = ended ↔ turn.next = none := by
  refine ⟨fun h => ?_, after_of_none⟩
  cases hnext : turn.next with
  | none => rfl
  | some call =>
    rw [after_of_some hnext] at h
    cases h

theorem after_resume_none (n : Node) (d : Delivery) (v : View) (call : Call) : after (n.resume d v call none) = ended :=
  after_of_none (Node.next_resume_none call)

theorem rank_eq_zero {stage : Stage} : stage.rank = 0 ↔ stage = .ended := by
  rcases stage with _ | ⟨call, begun⟩ | _
  · simp [rank]
  · cases call <;> simp [rank]
  · simp [rank]

variable (n : Node) (d : Delivery)

theorem rank_after_receive : (after (Node.receive d)).rank ≤ 3 := by
  cases h : Address.parse d.message.body.sender with
  | error e => simp [after, Node.next_receive_of_error h, rank]
  | ok a => simp [after, Node.next_receive_of_ok h, rank]

private theorem rank_after_answer (r : Response) (v : View) : (after (n.answer d r v)).rank ≤ 1 := by
  cases h : n.outgoing d.message.body r v with
  | error e => simp [after, Node.next_answer_of_error h, rank]
  | ok m => simp [after, Node.next_answer_of_ok h, rank]

private theorem rank_after_serve (a : Address) (v : View) : (after (n.serve d a v)).rank ≤ 2 := by
  cases h : Method.ofName? d.message.body.method with
  | none => simp [after, Node.next_serve_of_none h, rank]
  | some method =>
    rcases hp : method.decode d.message.body.payloadBytes with e | _ | r
    · have hanswer := rank_after_answer n d (.badRequest method e) v
      rw [after, ← Node.next_serve_of_error (a := a) h hp] at hanswer
      exact Nat.le_succ_of_le hanswer
    · simp [after, Node.next_serve_of_list h hp, rank]
    · simp [after, Node.next_serve_of_set h hp, rank]

/-- Every answer and every cancellation brings an exchange closer to its end. -/
theorem rank_after_resume (v : View) (call : Call) (a : Option call.Answer) (begun : Bool) :
    (after (n.resume d v call a)).rank < (asking call begun).rank := by
  have hlast : ∀ t : Turn, t.next = none → (after t).rank < (asking call begun).rank := by
    intro t ht
    cases call <;> simp [after, ht, rank]
  rcases call with sender | owner | write | out
  · rcases a with _ | _ | _
    · exact hlast _ rfl
    · exact hlast _ rfl
    · exact Nat.lt_succ_of_le (rank_after_serve n d sender v)
  · cases a with
    | none => exact hlast _ rfl
    | some rows => exact Nat.lt_succ_of_le (rank_after_answer n d (.ofRows rows) v)
  · cases a with
    | none => exact hlast _ rfl
    | some written => exact Nat.lt_succ_of_le (rank_after_answer n d (.ofWritten written) v)
  · exact hlast _ (Node.next_resume_send a)

end Stage

end SecretsGateway
