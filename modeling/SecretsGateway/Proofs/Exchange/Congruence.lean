import SecretsGateway.Proofs.Exchange.Course

/-!
# Exchanges that go the same way

All that a node does in an exchange is its first turn and what it makes of the answers to its calls. Of the node only the key
has a part in this, and of the sender of the message only the account that is read from it. So an exchange takes the same
course for nodes with the same key (`Node.course_of_key`), and however the sender is written (`Node.course_withSender`): it
looks at the same calls, is answered the same, and reports the same.
-/

namespace SecretsGateway

variable {σ : Type}

namespace Delivery

variable (d : Delivery) (sender : String)

/-- The same message, with another text for its sender. -/
def withSender : Delivery := { d with message.body.sender := sender }

@[simp] theorem gateway_withSender : (d.withSender sender).gateway = d.gateway := rfl

@[simp] theorem body_withSender : (d.withSender sender).message.body = { d.message.body with sender } := rfl

@[simp] theorem withSender_sender : d.withSender d.message.body.sender = d := rfl

end Delivery

namespace Node

variable {n n' : Node} {d : Delivery} {s t : String}

section Turns

variable (hkey : n.key = n'.key)

include hkey

/-- The answer names the account of the key as its sender, and not the sender of the request. -/
private theorem reply_congr (request : MessageBody) (r : Response) :
    n.reply { request with sender := s } r = n'.reply request r := by
  rw [reply, reply, address, address, hkey]

private theorem answer_congr (r : Response) (v : View) : n.answer (d.withSender s) r v = n'.answer d r v := by
  simp only [answer, outgoing, Delivery.body_withSender, Delivery.gateway_withSender, reply_congr hkey]

private theorem serve_congr (a : Address) (v : View) : n.serve (d.withSender s) a v = n'.serve d a v := by
  simp only [serve, Delivery.body_withSender, Delivery.gateway_withSender, MessageBody.payloadBytes, answer_congr hkey]

private theorem resume_congr (v : View) (call : Call) (answer : Option call.Answer) :
    n.resume (d.withSender s) v call answer = n'.resume d v call answer := by
  cases call with
  | allow a =>
    rcases answer with _ | _ | _
    · rfl
    · rfl
    · exact serve_congr hkey a v
  | list owner =>
    cases answer with
    | none => rfl
    | some rows => exact answer_congr hkey (.ofRows rows) v
  | put write =>
    cases answer with
    | none => rfl
    | some written => exact answer_congr hkey (.ofWritten written) v
  | send out => rcases answer with _ | _ | _ <;> rfl

end Turns

private theorem receive_of_parse {a : Address} (h : Address.parse s = .ok a) :
    receive (d.withSender s) = ⟨[], some (.allow a)⟩ := by
  simp only [receive, Delivery.body_withSender, h]

section Courses

variable {d' : Delivery} (hreceive : receive d = receive d')
  (hresume : ∀ v call answer, n.resume d v call answer = n'.resume d' v call answer) (parts : Collaborators σ)

include hreceive hresume

private theorem step_congr (state : σ) (stage : Stage) : n.step parts d state stage = n'.step parts d' state stage := by
  cases stage with
  | arrived => simp only [step, hreceive]
  | ended => rfl
  | asking call begun => simp only [step, hresume]

private theorem advance_congr (steps : Nat) (state : σ) (stage : Stage) :
    n.advance parts d steps state stage = n'.advance parts d' steps state stage := by
  induction steps generalizing state stage with
  | zero => rfl
  | succ steps ih => simp only [advance, step_congr hreceive hresume, ih]

/-- Exchanges with the same first turn, and with the same turns after the same answers, take the same course. -/
private theorem course_of_turns (state : σ) (moves : List (Move σ)) :
    n.course parts d state moves = n'.course parts d' state moves := by
  have hmove : Course.move n parts d = Course.move n' parts d' := by
    funext c m
    cases m with
    | wake => simp only [Course.move, poll, advance_congr hreceive hresume]
    | stir change => rfl
  rw [course, course, hmove]

end Courses

/-- Nodes with the same key take the same course. -/
theorem course_of_key (hkey : n.key = n'.key) (parts : Collaborators σ) (d : Delivery) (state : σ) (moves : List (Move σ)) :
    n.course parts d state moves = n'.course parts d state moves :=
  course_of_turns rfl (resume_congr (s := d.message.body.sender) hkey) parts state moves

/-- However an account is written as the sender of a message, its exchange takes the same course. -/
theorem course_withSender {a : Address} (hs : Address.parse s = .ok a) (ht : Address.parse t = .ok a) (n : Node)
    (parts : Collaborators σ) (d : Delivery) (state : σ) (moves : List (Move σ)) :
    n.course parts (d.withSender s) state moves = n.course parts (d.withSender t) state moves := by
  refine course_of_turns ((receive_of_parse hs).trans (receive_of_parse ht).symm) (fun v call answer => ?_) parts state moves
  rw [resume_congr rfl, resume_congr rfl]

end Node

end SecretsGateway
