import SecretsGateway.Proofs.Address
import SecretsGateway.Proofs.Exchange.Calls
import SecretsGateway.Proofs.Exchange.Congruence
import SecretsGateway.Proofs.Secret.Envelope

/-!
# One account under all spellings

An account can be written in many ways, and it is one account everywhere: where texts are read, where accounts are compared,
and where a message is handled on behalf of its sender (`Address.one_account`).
-/

namespace SecretsGateway

namespace Address

/-- An account is read from a text exactly if, after at most one mark, this is forty digits of either case; other texts are
refused for their size in bytes or, if that is forty, for a character that is no digit. What an account is written as, shown
as and has in JSON is read back. Two texts are the same account exactly if their digits agree up to the case of the letters,
and accounts are in the order of their written forms. However the sender of a message is written, a node that handles it takes
the same course: the calls to the allowlist and to the storage are the same, and so is the answer that is sent. -/
theorem one_account :
    (∀ s : String, ∃ digits, Hex.Unmarks marks s.toList digits ∧
      ((∃ a, parse s = .ok a) ↔ digits.length = 40 ∧ ∀ c ∈ digits, Hex.IsDigit c) ∧
      (∀ n, parse s = .error (.length n) ↔ n = Utf8.size digits ∧ n ≠ 40) ∧
      (parse s = .error .digit ↔ Utf8.size digits = 40 ∧ ∃ c ∈ digits, ¬ Hex.IsDigit c)) ∧
    (∀ a : Address, parse a.toHex = .ok a ∧ parse (toString a) = .ok a ∧
      Json.decode read (Json.Value.text a.toHex).write = .ok a) ∧
    (∀ s t digits digits' a b, Hex.Unmarks marks s.toList digits → Hex.Unmarks marks t.toList digits' →
      parse s = .ok a → parse t = .ok b → (a = b ↔ digits.map Char.toLower = digits'.map Char.toLower)) ∧
    (∀ a b : Address, compare a b = compare a.toHex b.toHex ∧
      compare a b = compareOfLessAndEq (Utf8.encode a.toHex) (Utf8.encode b.toHex)) ∧
    ∀ (σ : Type) (n : Node) (parts : Collaborators σ) (d : Delivery) (state : σ) (moves : List (Move σ)) (s t : String)
      (a : Address), parse s = .ok a → parse t = .ok a →
      n.course parts (d.withSender s) state moves = n.course parts (d.withSender t) state moves := by
  refine ⟨fun s => ?_, fun a => ?_, fun s t digits digits' a b h h' hs ht => eq_iff_toLower h h' hs ht,
    fun a b => ⟨compare_toHex a b, compare_encode_toHex a b⟩,
    fun σ n parts d state moves s t a hs ht => n.course_withSender hs ht parts d state moves⟩
  · have hdigits : Hex.Unmarks marks s.toList (unmarked s.toList) := unmarks_iff.2 rfl
    exact ⟨_, hdigits, parse_judges hdigits⟩
  · exact ⟨a.parse_toHex, a.parse_toHex, a.reads_text.decode⟩

namespace Spelt

def bare : String := "e1ab8145f7e55dc933d51a18c793f901a3a0b276"

def capital : String := "0XE1AB8145F7E55DC933D51A18C793F901A3A0B276"

private theorem parse_bare : parse bare = .ok .five := parse_eq_ok_iff.2 (Hex.decode?_eq_some_iff.1 (by decide +kernel))

private theorem parse_capital : parse capital = .ok .five :=
  parse_eq_ok_iff.2 (Hex.decode?_eq_some_iff.1 (by decide +kernel))

/-- Both texts are the account of the key five, and their messages are handled alike. -/
theorem one_account_five : parse bare = .ok .five ∧ parse capital = .ok .five ∧
    (unmarked bare.toList).map Char.toLower = (unmarked capital.toList).map Char.toLower ∧
    Sample.node.course (World.collaborators ⟨0, none⟩) (Sample.request.withSender bare) Sample.world [.wake] =
      Sample.node.course (World.collaborators ⟨0, none⟩) (Sample.request.withSender capital) Sample.world [.wake] := by
  obtain ⟨-, -, hsame, -, hcourse⟩ := one_account
  exact ⟨parse_bare, parse_capital,
    (hsame _ _ _ _ _ _ (unmarks_iff.2 rfl) (unmarks_iff.2 rfl) parse_bare parse_capital).1 rfl,
    hcourse _ _ _ _ _ _ _ _ _ parse_bare parse_capital⟩

end Spelt

end Address

end SecretsGateway
