import SecretsGateway.Proofs.Hex
import SecretsGateway.Proofs.Message.Signed

/-!
# How a message is judged

A message is checked for nine things in a fixed order (`Message.Check.inOrder`). `Message.Objects` says of each check by itself
when it has something against a message, and what: it knows nothing of the other checks. A message is refused with the
objection of the first check that has one, and it is valid if there is none (`Message.validate_judges`). A sender that passes
the check of its form has forty-two bytes, so nothing can be said against its length later on.
-/

namespace SecretsGateway

namespace Address

/-- A text of forty-two bytes that begins with `0x`. -/
def IsMarked (s : String) : Prop := s.utf8ByteSize = 42 ∧ ['0', 'x'] <+: s.toList

/-- An account written in full: forty-two bytes, `0x` and then forty digits of either case that spell the account. -/
structure InFull (s : String) (a : Address) : Prop where
  size : s.utf8ByteSize = 42
  digits : ∃ digits, s.toList = '0' :: 'x' :: digits ∧ digits.length = 40 ∧ Hex.Spells digits a.bytes

variable {s : String} {a b : Address}

/-- What follows the mark of a marked text are forty bytes. -/
private theorem IsMarked.exists_rest (h : IsMarked s) :
    ∃ rest, s.toList = '0' :: 'x' :: rest ∧ (String.ofList rest).utf8ByteSize = 40 := by
  obtain ⟨hsize, rest, hrest⟩ := h
  refine ⟨rest, hrest.symm, ?_⟩
  have hs : s = String.ofList ('0' :: 'x' :: rest) := by
    rw [← s.ofList_toList, ← hrest]
    rfl
  rw [hs, ← Utf8.length_encode, Utf8.encode_ofList, List.flatMap_cons, List.flatMap_cons, List.length_append,
    List.length_append] at hsize
  have hzero : (String.utf8EncodeChar '0').length = 1 := rfl
  have hx : (String.utf8EncodeChar 'x').length = 1 := rfl
  rw [← Utf8.length_encode, Utf8.encode_ofList]
  omega

private theorem InFull.isMarked (h : InFull s a) : IsMarked s := by
  obtain ⟨digits, hs, -, -⟩ := h.digits
  exact ⟨h.size, digits, hs.symm⟩

private theorem InFull.unique (h : InFull s a) (h' : InFull s b) : a = b := by
  obtain ⟨digits, hs, -, hspells⟩ := h.digits
  obtain ⟨digits', hs', -, hspells'⟩ := h'.digits
  rw [hs] at hs'
  cases hs'
  have hbytes := hspells.unique hspells'
  cases a
  cases b
  cases hbytes
  rfl

/-- A marked text is an account in full, or some character after the mark is no digit. -/
private theorem IsMarked.inFull_or (h : IsMarked s) :
    (∃ a, InFull s a ∧ parse s = .ok a) ∨ (∃ c ∈ s.toList.drop 2, ¬ Hex.IsDigit c) ∧ parse s = .error .digit := by
  obtain ⟨rest, hs, hsize⟩ := h.exists_rest
  have hunmarked : unmarked s.toList = rest := by rw [hs, unmarked]
  have hdrop : s.toList.drop 2 = rest := by rw [hs]; rfl
  rcases parse_cases_of_size (s := s) (by rw [hunmarked, hsize]) with ⟨a, hparse⟩ | ⟨hparse, hdigits⟩
  · have hspells := parse_eq_ok_iff.1 hparse
    rw [hunmarked] at hspells
    refine .inl ⟨a, ⟨h.1, rest, hs, ?_, hspells⟩, hparse⟩
    rw [hspells.length, a.length_bytes]
  · rw [hunmarked] at hdigits
    exact .inr ⟨hdrop ▸ hdigits, hparse⟩

private theorem InFull.isDigit (h : InFull s a) : ∀ c ∈ s.toList.drop 2, Hex.IsDigit c := by
  obtain ⟨digits, hs, -, hspells⟩ := h.digits
  rw [hs]
  exact hspells.isDigit

end Address

namespace Message

/-- What a message is checked for. -/
inductive Check where
  /-- A method is named. -/
  | method
  /-- The sender has the length and the mark of an account in full. -/
  | form
  /-- The sender is spelt in digits. -/
  | digits
  /-- A text fits its width. -/
  | width (f : MessageBody.Field)
  /-- The signature is spelt in digits. -/
  | encoding
  /-- A signer is recovered from the signature. -/
  | signature
  /-- The signer is the sender. -/
  | signer

/-- The checks in the order in which they are made. The width of the sender is not among them. -/
def Check.inOrder : List Check :=
  [.method, .form, .digits, .width .messageId, .width .method, .width .donId, .encoding, .signature, .signer]

/-- The bytes of the signature, and what it has to sign. -/
def Presents (m : Message) (signature data : Bytes) : Prop :=
  Hex.Spells (Hex.unmarked m.signature.toList) signature ∧ m.body.signingBytes = .ok data

/-- The signature is an even number of digits, after a mark or without. -/
def IsEncoded (m : Message) : Prop :=
  (Hex.unmarked m.signature.toList).length % 2 = 0 ∧ ∀ c ∈ Hex.unmarked m.signature.toList, Hex.IsDigit c

/-- What a check has to say against a message. -/
inductive Objects (m : Message) : Check → MessageError → Prop
  | method : m.body.method = "" → Objects m .method .emptyMethod
  | form : ¬ Address.IsMarked m.body.sender → Objects m .form (.nonCanonicalSender m.body.sender)
  | digits : (∃ c ∈ m.body.sender.toList.drop 2, ¬ Hex.IsDigit c) → Objects m .digits (.invalidSender .digit)
  | width (f : MessageBody.Field) : f.width < (f.text m.body).utf8ByteSize →
      Objects m (.width f) (.fieldTooLong f.name (f.text m.body).utf8ByteSize f.width)
  | encoding : ¬ m.IsEncoded → Objects m .encoding .signatureEncoding
  | signature {signature data : Bytes} {e : SignatureError} : m.Presents signature data →
      recover signature data = .error e → Objects m .signature (.signature e)
  | signer {signature data : Bytes} {declared recovered : Address} : m.Presents signature data →
      Address.InFull m.body.sender declared → recover signature data = .ok recovered → recovered ≠ declared →
      Objects m .signer (.senderMismatch declared recovered)

/-- The check has something to say against the message. -/
def Fails (m : Message) (c : Check) : Prop := ∃ e, m.Objects c e

variable {m : Message} {c : Check} {e e' : MessageError} {a : Address} {signature data : Bytes}

private theorem Presents.unique {signature' data' : Bytes} (h : m.Presents signature data) (h' : m.Presents signature' data') :
    signature = signature' ∧ data = data' := by
  obtain ⟨hspells, hdata⟩ := h
  obtain ⟨hspells', hdata'⟩ := h'
  rw [hdata] at hdata'
  exact ⟨hspells.unique hspells', Except.ok.inj hdata'⟩

private theorem isEncoded_iff : m.IsEncoded ↔ ∃ signature, m.signatureBytes = .ok signature := by
  unfold IsEncoded signatureBytes
  rw [← Hex.exists_spells_iff]
  constructor
  · rintro ⟨signature, h⟩
    exact ⟨signature, by rw [Hex.decode?_eq_some_iff.2 h]⟩
  · rintro ⟨signature, h⟩
    split at h
    · next hread => exact ⟨_, Hex.decode?_eq_some_iff.1 hread⟩
    · cases h

private theorem signatureBytes_eq_ok_iff :
    m.signatureBytes = .ok signature ↔ Hex.Spells (Hex.unmarked m.signature.toList) signature := by
  unfold signatureBytes
  rw [← Hex.decode?_eq_some_iff]
  cases Hex.decode? (Hex.unmarked m.signature.toList) with
  | none => simp
  | some bs => simp

private theorem signatureBytes_of_not_isEncoded (h : ¬ m.IsEncoded) : m.signatureBytes = .error .signatureEncoding := by
  cases hread : Hex.decode? (Hex.unmarked m.signature.toList) with
  | none => rw [signatureBytes, hread]
  | some signature => exact absurd (isEncoded_iff.2 ⟨signature, by rw [signatureBytes, hread]⟩) h

private theorem Objects.unique (h : m.Objects c e) (h' : m.Objects c e') : e = e' := by
  cases h with
  | method => cases h'; rfl
  | form => cases h'; rfl
  | digits => cases h'; rfl
  | width => cases h'; rfl
  | encoding => cases h'; rfl
  | signature hpresents hrecover =>
    cases h' with
    | signature hpresents' hrecover' =>
      obtain ⟨rfl, rfl⟩ := hpresents.unique hpresents'
      rw [hrecover] at hrecover'
      cases hrecover'
      rfl
  | signer hpresents hdeclared hrecover =>
    cases h' with
    | signer hpresents' hdeclared' hrecover' =>
      obtain ⟨rfl, rfl⟩ := hpresents.unique hpresents'
      rw [hrecover] at hrecover'
      cases hrecover'
      rw [hdeclared.unique hdeclared']

/-- What is wrong with a message if a check fails. -/
def Flaw (m : Message) : Check → Prop
  | .method => m.body.method = ""
  | .form => ¬ Address.IsMarked m.body.sender
  | .digits => ∃ c ∈ m.body.sender.toList.drop 2, ¬ Hex.IsDigit c
  | .width f => f.IsTooLong m.body
  | .encoding => ¬ m.IsEncoded
  | .signature => ∃ signature data e, m.Presents signature data ∧ recover signature data = .error e
  | .signer => ∃ signature data declared recovered, m.Presents signature data ∧ Address.InFull m.body.sender declared ∧
      recover signature data = .ok recovered ∧ recovered ≠ declared

private theorem fails_iff : m.Fails c ↔ m.Flaw c := by
  constructor
  · rintro ⟨e, h⟩
    cases h with
    | method h => exact h
    | form h => exact h
    | digits h => exact h
    | width _ h => exact h
    | encoding h => exact h
    | signature hpresents hrecover => exact ⟨_, _, _, hpresents, hrecover⟩
    | signer hpresents hfull hrecover hne => exact ⟨_, _, _, _, hpresents, hfull, hrecover, hne⟩
  · intro h
    cases c with
    | method => exact ⟨_, .method h⟩
    | form => exact ⟨_, .form h⟩
    | digits => exact ⟨_, .digits h⟩
    | width f => exact ⟨_, .width f h⟩
    | encoding => exact ⟨_, .encoding h⟩
    | signature =>
      obtain ⟨_, _, _, hpresents, hrecover⟩ := h
      exact ⟨_, .signature hpresents hrecover⟩
    | signer =>
      obtain ⟨_, _, _, _, hpresents, hfull, hrecover, hne⟩ := h
      exact ⟨_, .signer hpresents hfull hrecover hne⟩

private theorem not_fails_signature (hpresents : m.Presents signature data) (hrecover : recover signature data = .ok a) :
    ¬ m.Fails .signature := by
  rw [fails_iff]
  rintro ⟨_, _, e, hpresents', hrecover'⟩
  obtain ⟨rfl, rfl⟩ := hpresents.unique hpresents'
  rw [hrecover] at hrecover'
  cases hrecover'

private theorem not_fails_signer (hpresents : m.Presents signature data) (hfull : Address.InFull m.body.sender a)
    (hrecover : recover signature data = .ok a) : ¬ m.Fails .signer := by
  rw [fails_iff]
  rintro ⟨_, _, _, _, hpresents', hfull', hrecover', hne⟩
  obtain ⟨rfl, rfl⟩ := hpresents.unique hpresents'
  rw [hrecover] at hrecover'
  cases hrecover'
  exact hne (hfull.unique hfull')

/-- A sender in full passes the checks of its form and of its digits, and it is not too long. -/
private theorem passes_of_inFull (h : Address.InFull m.body.sender a) :
    ¬ m.Fails .form ∧ ¬ m.Fails .digits ∧ ¬ MessageBody.Field.IsTooLong m.body .sender := by
  refine ⟨mt fails_iff.1 (not_not_intro h.isMarked), ?_, ?_⟩
  · rw [fails_iff]
    rintro ⟨c, hc, hdigit⟩
    exact hdigit (h.isDigit c hc)
  · exact Nat.not_lt.2 (Nat.le_of_eq h.size)

private theorem declaredSender_of_inFull {sender : String} (h : Address.InFull sender a) : declaredSender sender = .ok a := by
  have hparse : Address.parse sender = .ok a := by
    rcases h.isMarked.inFull_or with ⟨b, hb, hparse⟩ | ⟨⟨c, hc, hdigit⟩, -⟩
    · rw [hparse, h.unique hb]
    · exact absurd (h.isDigit c hc) hdigit
  unfold declaredSender
  have hfull : ¬ (sender.utf8ByteSize ≠ MessageBody.senderWidth ∨ ¬ ['0', 'x'] <+: sender.toList) := by
    rintro (hsize | hmark)
    · exact hsize h.size
    · exact hmark h.isMarked.2
  rw [if_neg hfull, hparse]

private theorem inFull_of_declaredSender {sender : String} (h : declaredSender sender = .ok a) : Address.InFull sender a := by
  unfold declaredSender at h
  split at h
  · cases h
  · next hfull =>
    rw [not_or, Decidable.not_not, Decidable.not_not] at hfull
    have hmarked : Address.IsMarked sender := hfull
    rcases hmarked.inFull_or with ⟨b, hb, hparse⟩ | ⟨-, hparse⟩
    · rw [hparse] at h
      cases h
      exact hb
    · rw [hparse] at h
      cases h

/-! ### The first objection -/

/-- None of the checks fails. -/
def Passes (m : Message) (cs : List Check) : Prop := ∀ c ∈ cs, ¬ m.Fails c

/-- The check is the first one that fails. -/
def FailsFirst (m : Message) (c : Check) : Prop :=
  ∃ earlier later, Check.inOrder = earlier ++ c :: later ∧ m.Fails c ∧ m.Passes earlier

variable {cs earlier later : List Check}

private theorem passes_nil : m.Passes [] := nofun

private theorem Passes.not_flaw (h : m.Passes cs) (hc : c ∈ cs) : ¬ m.Flaw c := mt fails_iff.2 (h c hc)

private theorem Passes.append {cs' : List Check} (h : m.Passes cs) (h' : m.Passes cs') : m.Passes (cs ++ cs') := by
  intro c hc
  rcases List.mem_append.1 hc with hc | hc
  · exact h c hc
  · exact h' c hc

private theorem Passes.snoc (h : m.Passes cs) (hc : ¬ m.Fails c) : m.Passes (cs ++ [c]) := by
  refine h.append fun c' hc' => ?_
  rwa [List.mem_singleton.1 hc']

private theorem FailsFirst.unique {c' : Check} (h : m.FailsFirst c) (h' : m.FailsFirst c') : c = c' := by
  obtain ⟨earlier, later, horder, hfails, hearlier⟩ := h
  obtain ⟨earlier', later', horder', hfails', hearlier'⟩ := h'
  rcases eq_or_before (horder.symm.trans horder') with heq | hc | hc
  · exact heq
  · exact absurd hfails (hearlier' c hc)
  · exact absurd hfails' (hearlier c' hc)

/-- A message is refused with the objection of the first check that fails. -/
def IsRefused (m : Message) : Prop := ∃ e, m.validate = .error e ∧ ∃ c, m.FailsFirst c ∧ m.Objects c e

private theorem isRefused_of (hvalidate : m.validate = .error e) (horder : Check.inOrder = earlier ++ c :: later)
    (h : m.Objects c e) (hearlier : m.Passes earlier) : m.IsRefused :=
  ⟨e, hvalidate, c, ⟨earlier, later, horder, ⟨e, h⟩, hearlier⟩, h⟩

private theorem validate_of_sender_error (hmethod : m.body.method ≠ "") (h : declaredSender m.body.sender = .error e) :
    m.validate = .error e := by
  unfold validate
  rw [if_neg hmethod, h]
  rfl

private theorem validate_of_body_error (hmethod : m.body.method ≠ "") (hsender : declaredSender m.body.sender = .ok a)
    (h : m.body.signingBytes = .error e) : m.validate = .error e := by
  unfold validate
  rw [if_neg hmethod, hsender, h]
  rfl

private theorem validate_of_encoding_error (hmethod : m.body.method ≠ "") (hsender : declaredSender m.body.sender = .ok a)
    (hdata : m.body.signingBytes = .ok data) (h : m.signatureBytes = .error e) : m.validate = .error e := by
  unfold validate
  rw [if_neg hmethod, hsender, hdata, h]
  rfl

private theorem validate_of_recover_error {e : SignatureError} (hmethod : m.body.method ≠ "")
    (hsender : declaredSender m.body.sender = .ok a) (hdata : m.body.signingBytes = .ok data)
    (hsignature : m.signatureBytes = .ok signature) (h : recover signature data = .error e) :
    m.validate = .error (.signature e) := by
  unfold validate
  rw [if_neg hmethod, hsender, hdata, hsignature]
  simp only [ok_bind, h]
  rfl

private theorem sender_cases (m : Message) :
    m.IsRefused ∨ m.body.method ≠ "" ∧ (∃ a, Address.InFull m.body.sender a) ∧ m.Passes (Check.inOrder.take 3) := by
  by_cases hmethod : m.body.method = ""
  · have hvalidate : m.validate = .error .emptyMethod := by
      unfold validate
      rw [if_pos hmethod]
      rfl
    have horder : Check.inOrder = [] ++ .method :: Check.inOrder.tail := rfl
    exact .inl (isRefused_of hvalidate horder (.method hmethod) passes_nil)
  have hnamed : m.Passes (Check.inOrder.take 1) := passes_nil.snoc (mt fails_iff.1 hmethod)
  by_cases hmarked : Address.IsMarked m.body.sender
  · have hform : m.Passes (Check.inOrder.take 2) := hnamed.snoc (mt fails_iff.1 (not_not_intro hmarked))
    rcases hmarked.inFull_or with ⟨a, ha, -⟩ | ⟨hdigits, hparse⟩
    · exact .inr ⟨hmethod, ⟨a, ha⟩, hform.snoc (passes_of_inFull ha).2.1⟩
    · have hsender : declaredSender m.body.sender = .error (.invalidSender .digit) := by
        unfold declaredSender
        rw [if_neg (by rw [not_or, Decidable.not_not, Decidable.not_not]; exact hmarked), hparse]
      have horder : Check.inOrder = Check.inOrder.take 2 ++ .digits :: Check.inOrder.drop 3 := rfl
      exact .inl (isRefused_of (validate_of_sender_error hmethod hsender) horder (.digits hdigits) hform)
  · have hsender : declaredSender m.body.sender = .error (.nonCanonicalSender m.body.sender) := by
      have hbad : m.body.sender.utf8ByteSize ≠ MessageBody.senderWidth ∨ ¬ ['0', 'x'] <+: m.body.sender.toList :=
        Decidable.not_and_iff_or_not.1 hmarked
      unfold declaredSender
      rw [if_pos hbad]
    have horder : Check.inOrder = Check.inOrder.take 1 ++ .form :: Check.inOrder.drop 2 := rfl
    exact .inl (isRefused_of (validate_of_sender_error hmethod hsender) horder (.form hmarked) hnamed)

/-- The texts whose widths are checked. -/
private def checkedFields : List MessageBody.Field := [.messageId, .method, .donId]

/-- The checks of the widths; a sender in full is not too long any more. -/
private theorem width_cases (hmethod : m.body.method ≠ "") (hfull : Address.InFull m.body.sender a)
    (hearlier : m.Passes (Check.inOrder.take 3)) :
    m.IsRefused ∨ (∃ data, m.body.signingBytes = .ok data) ∧ m.Passes (Check.inOrder.take 6) := by
  obtain ⟨-, -, hsender⟩ := passes_of_inFull hfull
  -- the sender, which is the last text, cannot be the first one that is too long
  have hfirst : MessageBody.Field.inOrder.find? (fun f => decide (f.IsTooLong m.body)) =
      checkedFields.find? fun f => decide (f.IsTooLong m.body) := by
    have hlast : [MessageBody.Field.sender].find? (fun f => decide (f.IsTooLong m.body)) = none := by
      rw [List.find?_singleton, decide_eq_false hsender]
      rfl
    have horder : MessageBody.Field.inOrder = checkedFields ++ [.sender] := rfl
    rw [horder, List.find?_append, hlast, Option.or_none]
  have hdata := m.body.signingBytes_eq_first
  rw [hfirst] at hdata
  cases hfind : checkedFields.find? fun f => decide (f.IsTooLong m.body) with
  | none =>
    rw [hfind] at hdata
    have hwidths : m.Passes (checkedFields.map .width) := by
      intro c hc
      obtain ⟨f, hf, rfl⟩ := List.mem_map.1 hc
      exact mt fails_iff.1 (by simpa [Flaw] using List.find?_eq_none.1 hfind f hf)
    exact .inr ⟨⟨_, hdata⟩, hearlier.append hwidths⟩
  | some f =>
    rw [hfind] at hdata
    obtain ⟨hlong, before, after, hsplit, hbefore⟩ := List.find?_eq_some_iff_append.1 hfind
    have hwidths : m.Passes (before.map .width) := by
      intro c hc
      obtain ⟨f', hf', rfl⟩ := List.mem_map.1 hc
      exact mt fails_iff.1 (by simpa [Flaw] using hbefore f' hf')
    have horder : Check.inOrder = (Check.inOrder.take 3 ++ before.map .width) ++ .width f ::
        (after.map .width ++ Check.inOrder.drop 6) := by
      calc
        Check.inOrder = Check.inOrder.take 3 ++ checkedFields.map .width ++ Check.inOrder.drop 6 := rfl
        _ = _ := by
          rw [hsplit, List.map_append, List.map_cons]
          simp only [List.append_assoc, List.cons_append]
    have hvalidate := validate_of_body_error hmethod (declaredSender_of_inFull hfull) hdata
    exact .inl (isRefused_of hvalidate horder (.width f (of_decide_eq_true hlong)) (hearlier.append hwidths))

private theorem signature_cases (hmethod : m.body.method ≠ "") (hfull : Address.InFull m.body.sender a)
    (hdata : m.body.signingBytes = .ok data) (hearlier : m.Passes (Check.inOrder.take 6)) :
    m.IsRefused ∨ m.validate = .ok a ∧ m.Passes Check.inOrder := by
  have hsender := declaredSender_of_inFull hfull
  by_cases hencoded : m.IsEncoded
  · have hencoding : m.Passes (Check.inOrder.take 7) := hearlier.snoc (mt fails_iff.1 (not_not_intro hencoded))
    obtain ⟨signature, hsignature⟩ := isEncoded_iff.1 hencoded
    have hpresents : m.Presents signature data := ⟨signatureBytes_eq_ok_iff.1 hsignature, hdata⟩
    cases hrecover : recover signature data with
    | error e =>
      have hvalidate := validate_of_recover_error hmethod hsender hdata hsignature hrecover
      have horder : Check.inOrder = Check.inOrder.take 7 ++ .signature :: [.signer] := rfl
      exact .inl (isRefused_of hvalidate horder (.signature hpresents hrecover) hencoding)
    | ok recovered =>
      have hsigned : m.Passes (Check.inOrder.take 8) := hencoding.snoc (not_fails_signature hpresents hrecover)
      by_cases hsame : recovered = a
      · subst hsame
        exact .inr ⟨validate_eq_ok hmethod hsender hdata hsignature hrecover,
          hsigned.snoc (not_fails_signer hpresents hfull hrecover)⟩
      · have hvalidate := validate_of_mismatch hmethod hsender hdata hsignature hrecover hsame
        have horder : Check.inOrder = Check.inOrder.take 8 ++ .signer :: [] := rfl
        exact .inl (isRefused_of hvalidate horder (.signer hpresents hfull hrecover hsame) hsigned)
  · have hsignature : m.signatureBytes = .error .signatureEncoding := signatureBytes_of_not_isEncoded hencoded
    have horder : Check.inOrder = Check.inOrder.take 6 ++ .encoding :: Check.inOrder.drop 7 := rfl
    exact .inl (isRefused_of (validate_of_encoding_error hmethod hsender hdata hsignature) horder (.encoding hencoded) hearlier)

/-- A message is valid and passes every check, or it is refused by the first check that fails. -/
private theorem validate_cases (m : Message) : (∃ a, m.validate = .ok a ∧ m.Passes Check.inOrder) ∨ m.IsRefused := by
  rcases m.sender_cases with hrefused | ⟨hmethod, ⟨a, hfull⟩, hthree⟩
  · exact .inr hrefused
  rcases width_cases hmethod hfull hthree with hrefused | ⟨⟨data, hdata⟩, hsix⟩
  · exact .inr hrefused
  rcases signature_cases hmethod hfull hdata hsix with hrefused | ⟨hvalid, hall⟩
  · exact .inr hrefused
  · exact .inl ⟨a, hvalid, hall⟩

/-- A message is authentic, and of an account: it names a method, its sender is the account in full, its other texts fit their
widths, and its signature is spelt in digits and is one of the account for what is to be signed. -/
structure IsAuthentic (m : Message) (a : Address) : Prop where
  method : m.body.method ≠ ""
  sender : Address.InFull m.body.sender a
  widths : m.body.messageId.utf8ByteSize ≤ 128 ∧ m.body.method.utf8ByteSize ≤ 64 ∧ m.body.donId.utf8ByteSize ≤ 64
  encoded : m.IsEncoded
  signer : ∃ signature data, m.Presents signature data ∧ recover signature data = .ok a

private theorem validate_eq_ok_iff : m.validate = .ok a ↔ m.IsAuthentic a := by
  constructor
  · intro h
    rcases m.validate_cases with ⟨_, -, hpasses⟩ | ⟨e, hrefused, -⟩
    · obtain ⟨hsender, data, signature, hdata, hsignature, hrecover⟩ := exists_of_validate h
      have hwidth : ∀ f ∈ checkedFields, (f.text m.body).utf8ByteSize ≤ f.width := by
        intro f hf
        have hc : Check.width f ∈ Check.inOrder :=
          List.mem_of_mem_drop (i := 3) (List.mem_append_left _ (List.mem_map_of_mem hf))
        exact Nat.not_lt.1 (hpasses.not_flaw hc)
      exact {
        method := hpasses.not_flaw (c := .method) (by simp [Check.inOrder])
        sender := inFull_of_declaredSender hsender
        widths := ⟨hwidth .messageId (by simp [checkedFields]), hwidth .method (by simp [checkedFields]),
          hwidth .donId (by simp [checkedFields])⟩
        encoded := isEncoded_iff.2 ⟨signature, hsignature⟩
        signer := ⟨signature, data, ⟨signatureBytes_eq_ok_iff.1 hsignature, hdata⟩, hrecover⟩ }
    · rw [h] at hrefused
      cases hrefused
  · rintro ⟨hmethod, hsender, -, -, signature, data, ⟨hspells, hdata⟩, hrecover⟩
    exact validate_eq_ok hmethod (declaredSender_of_inFull hsender) hdata (signatureBytes_eq_ok_iff.2 hspells) hrecover

private theorem validate_eq_error_iff : m.validate = .error e ↔ ∃ c, m.FailsFirst c ∧ m.Objects c e := by
  rcases m.validate_cases with ⟨a, hvalid, hpasses⟩ | ⟨e', hrefused, c', hfirst', hobjects'⟩
  · rw [hvalid]
    refine iff_of_false nofun ?_
    rintro ⟨c, ⟨earlier, later, horder, hfails, -⟩, -⟩
    refine hpasses c ?_ hfails
    rw [horder]
    exact List.mem_append_right _ List.mem_cons_self
  · rw [hrefused]
    constructor
    · rintro ⟨⟩
      exact ⟨c', hfirst', hobjects'⟩
    · rintro ⟨c, hfirst, hobjects⟩
      cases hfirst.unique hfirst'
      rw [hobjects.unique hobjects']

/-- Neither the length of an account nor the width of the sender is ever what a check objects to. -/
private theorem Objects.ne (hc : c ∈ Check.inOrder) (h : m.Objects c e) :
    (∀ n, e ≠ .invalidSender (.length n)) ∧ ∀ length max, e ≠ .fieldTooLong "sender" length max := by
  cases h with
  | width f hlong =>
    refine ⟨nofun, fun length max he => ?_⟩
    have hf : f ∈ checkedFields := by
      simpa [Check.inOrder, checkedFields] using hc
    injection he with hname
    revert hname
    simp only [checkedFields, List.mem_cons, List.not_mem_nil, or_false] at hf
    rcases hf with rfl | rfl | rfl <;> decide
  | method => exact ⟨nofun, nofun⟩
  | form => exact ⟨nofun, nofun⟩
  | digits => exact ⟨nofun, nofun⟩
  | encoding => exact ⟨nofun, nofun⟩
  | signature => exact ⟨nofun, nofun⟩
  | signer => exact ⟨nofun, nofun⟩

/-- Messages are valid exactly if they are authentic, and otherwise they are refused with the objection of the first check that
has one; nothing is ever said of the length of the sender. -/
theorem validate_judges (m : Message) :
    (∀ a, m.validate = .ok a ↔ m.IsAuthentic a) ∧
    (∀ e, m.validate = .error e ↔ ∃ earlier c later, Check.inOrder = earlier ++ c :: later ∧ m.Objects c e ∧
      ∀ c' ∈ earlier, ∀ e', ¬ m.Objects c' e') ∧
    (∀ n, m.validate ≠ .error (.invalidSender (.length n))) ∧
    ∀ length max, m.validate ≠ .error (.fieldTooLong "sender" length max) := by
  have herror : ∀ e, m.validate = .error e → (∀ n, e ≠ .invalidSender (.length n)) ∧
      ∀ length max, e ≠ .fieldTooLong "sender" length max := by
    intro e h
    obtain ⟨c, ⟨earlier, later, horder, -, -⟩, hobjects⟩ := validate_eq_error_iff.1 h
    refine hobjects.ne ?_
    rw [horder]
    exact List.mem_append_right _ List.mem_cons_self
  refine ⟨fun a => validate_eq_ok_iff, fun e => ?_, fun n h => (herror _ h).1 n rfl, fun length max h =>
    (herror _ h).2 length max rfl⟩
  rw [validate_eq_error_iff]
  constructor
  · rintro ⟨c, ⟨earlier, later, horder, -, hearlier⟩, hobjects⟩
    exact ⟨earlier, c, later, horder, hobjects, fun c' hc' e' h => hearlier c' hc' ⟨e', h⟩⟩
  · rintro ⟨earlier, c, later, horder, hobjects, hearlier⟩
    exact ⟨c, ⟨earlier, later, horder, ⟨e, hobjects⟩, fun c' hc' ⟨e', h⟩ => hearlier c' hc' e' h⟩, hobjects⟩

end Message

end SecretsGateway
