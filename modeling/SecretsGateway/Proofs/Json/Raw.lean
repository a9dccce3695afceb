import Mathlib.Tactic.SplitIfs
import SecretsGateway.Json.Skip
import SecretsGateway.Proofs.Json.Scalar
import SecretsGateway.Proofs.Text.Utf8

/-!
# Raw values

A raw value is one value as it stands, without blanks around it, whatever numbers, escapes and blanks there are inside
(`IsRaw`). The machine that skips a value looks neither at the brackets that were open before it nor beyond its end: what it
does with a value alone, it does with the value among others (`skip_append`). So a raw value is kept as it stands wherever it
is written (`reads_raw`).
-/

namespace SecretsGateway.Json

section Steps

variable {state state' : SkipState} {frames frames' : List Frame} {b : UInt8} {s : Bytes}

theorem skip_of_next (h : skipStep state frames b = .next state' frames') :
    skip state frames (b :: s) = skip state' frames' s := by
  simp only [skip, h]

theorem skip_after_nil (s : Bytes) : skip .after [] s = .ok ((), s) := by
  cases s <;> rfl

/-- A value that ends with a byte is left behind. -/
theorem skip_of_endValue (h : skipStep state frames b = endValue frames') :
    skip state frames (b :: s) = skip .after frames' s := by
  cases frames' with
  | nil => simp only [skip, h, endValue, skip_after_nil, ↓reduceIte]
  | cons frame frames' => simp only [skip, h, endValue]

/-- The first byte of a value decides about the brackets before it. -/
theorem skip_opened_list (hblank : isBlank b = false) (hclose : b ≠ closeList) :
    skip .opened (.list :: frames) (b :: s) = skip .value (.list :: frames) (b :: s) := by
  have hstep : skipStep .opened (.list :: frames) b = skipStep .value (.list :: frames) b := by
    simp [skipStep, stepOpened, hblank, Frame.closer, hclose]
  simp only [skip, hstep]

/-- The machine is behind the digits of a number, which may be complete. -/
def SkipState.endsNumber : SkipState → Bool
  | .zero | .integer | .fraction | .exponent => true
  | _ => false

/-- A number ends before a delimiter. -/
theorem skip_ended (hstate : state.endsNumber = true) (frames : List Frame) {rest : Bytes} (h : Delimited rest) :
    skip state frames rest = skip .after frames rest := by
  cases rest with
  | nil => cases state <;> first | rfl | cases hstate
  | cons b rest =>
    have hstep : skipStep state frames b = skipStep .after frames b := by
      rcases h b rfl with rfl | rfl | rfl <;> cases state <;> first | rfl | cases hstate
    simp only [skip, hstep]

end Steps

/-- The same step with more brackets open outside. -/
def SkipStep.inside (outer : List Frame) : SkipStep → SkipStep
  | next state frames => next state (frames ++ outer)
  | done true => endValue outer
  | step => step

section Inside

variable (outer frames : List Frame) (b : UInt8)

private theorem SkipStep.inside_next (state : SkipState) :
    (SkipStep.next state frames).inside outer = .next state (frames ++ outer) := rfl

theorem SkipStep.inside_fail (cause : Cause) (counted : Bool) :
    (SkipStep.fail cause counted).inside outer = .fail cause counted := rfl

private theorem endValue_append : endValue (frames ++ outer) = (endValue frames).inside outer := by
  cases frames <;> rfl

private theorem stepKey_append : stepKey (frames ++ outer) b = (stepKey frames b).inside outer := by
  simp only [stepKey, apply_ite (SkipStep.inside outer), SkipStep.inside_next, SkipStep.inside_fail]

private theorem stepValue_append : stepValue (frames ++ outer) b = (stepValue frames b).inside outer := by
  simp only [stepValue, apply_ite (SkipStep.inside outer), SkipStep.inside_next, SkipStep.inside_fail, List.cons_append]

variable {outer frames b}

private theorem stepAfter_append (h : stepAfter frames b ≠ .done false) :
    stepAfter (frames ++ outer) b = (stepAfter frames b).inside outer := by
  cases frames with
  | nil => exact absurd rfl h
  | cons frame frames =>
    simp only [stepAfter, List.cons_append]
    split_ifs
    · rfl
    · rfl
    · exact endValue_append outer frames
    · rfl

private theorem stepOpened_append (h : stepOpened frames b ≠ .done false) :
    stepOpened (frames ++ outer) b = (stepOpened frames b).inside outer := by
  cases frames with
  | nil => exact absurd rfl h
  | cons frame frames =>
    simp only [stepOpened, List.cons_append]
    split_ifs
    · rfl
    · exact endValue_append outer frames
    · cases frame with
      | list => exact stepValue_append outer (.list :: frames) b
      | object => exact stepKey_append outer (.object :: frames) b

private theorem stepNumber_append {state : SkipState} (h : stepNumber state frames b ≠ .done false) :
    stepNumber state (frames ++ outer) b = (stepNumber state frames b).inside outer := by
  unfold stepNumber at h ⊢
  split_ifs at h ⊢
  · rfl
  · rfl
  · rfl
  · rfl
  · exact stepAfter_append h

/-- The brackets that were open before a value change nothing inside it. -/
private theorem skipStep_append {state : SkipState} (h : skipStep state frames b ≠ .done false) :
    skipStep state (frames ++ outer) b = (skipStep state frames b).inside outer := by
  -- the states that can come to a bracket have lemmas of their own, the others never look at the brackets
  cases state with
  | value => exact stepValue_append outer frames b
  | opened => exact stepOpened_append h
  | after => exact stepAfter_append h
  | key => exact stepKey_append outer frames b
  | zero => exact stepNumber_append h
  | integer => exact stepNumber_append h
  | fraction => exact stepNumber_append h
  | exponent => exact stepNumber_append h
  | word letters =>
    cases letters with
    | nil => rfl
    | cons letter letters =>
      simp only [skipStep]
      split_ifs
      · rfl
      · exact endValue_append outer frames
      · rfl
  | text isKey =>
    simp only [skipStep]
    split_ifs
    · rfl
    · exact endValue_append outer frames
    · rfl
    · rfl
    · rfl
  | colon =>
    simp only [skipStep]
    split_ifs <;> rfl
  | escape isKey =>
    simp only [skipStep]
    split_ifs <;> rfl
  | hex isKey digits =>
    simp only [skipStep]
    split_ifs <;> rfl
  | minus =>
    simp only [skipStep]
    split_ifs <;> rfl
  | point =>
    simp only [skipStep]
    split_ifs <;> rfl
  | exponentMark =>
    simp only [skipStep]
    split_ifs <;> rfl
  | exponentSign =>
    simp only [skipStep]
    split_ifs <;> rfl

end Inside

/-! ### Runs of the machine -/

/-- The machine stands behind an opening bracket only while that bracket is open. -/
def SkipStep.Rooted : SkipStep → Prop
  | next state frames => state = .opened → frames ≠ []
  | _ => True

section Rooted

variable (frames : List Frame) (b : UInt8)

private theorem rooted_ite {c : Prop} [Decidable c] {step step' : SkipStep} (h : step.Rooted) (h' : step'.Rooted) :
    (if c then step else step').Rooted := by
  by_cases hc : c
  · rwa [if_pos hc]
  · rwa [if_neg hc]

private theorem rooted_endValue : (endValue frames).Rooted := by
  cases frames with
  | nil => trivial
  | cons frame frames => nofun

private theorem rooted_stepKey : (stepKey frames b).Rooted := by
  unfold stepKey
  repeat' apply rooted_ite
  all_goals first | trivial | nofun

private theorem rooted_stepValue : (stepValue frames b).Rooted := by
  unfold stepValue
  repeat' apply rooted_ite
  all_goals first | trivial | nofun

private theorem rooted_stepAfter : (stepAfter frames b).Rooted := by
  cases frames with
  | nil => trivial
  | cons frame frames =>
    unfold stepAfter
    refine rooted_ite nofun (rooted_ite ?_ (rooted_ite (rooted_endValue frames) trivial))
    cases frame <;> nofun

private theorem rooted_stepOpened : (stepOpened frames b).Rooted := by
  cases frames with
  | nil => trivial
  | cons frame frames =>
    unfold stepOpened
    refine rooted_ite (fun _ => List.cons_ne_nil _ _) (rooted_ite (rooted_endValue frames) ?_)
    cases frame with
    | list => exact rooted_stepValue _ b
    | object => exact rooted_stepKey _ b

private theorem rooted_stepNumber {state : SkipState} (hstate : state ≠ .opened) : (stepNumber state frames b).Rooted := by
  unfold stepNumber
  refine rooted_ite (rooted_ite trivial fun h => absurd h hstate) (rooted_ite nofun (rooted_ite nofun ?_))
  exact rooted_stepAfter frames b

private theorem rooted_skipStep (state : SkipState) : (skipStep state frames b).Rooted := by
  cases state with
  | value => exact rooted_stepValue frames b
  | opened => exact rooted_stepOpened frames b
  | after => exact rooted_stepAfter frames b
  | key => exact rooted_stepKey frames b
  | zero => exact rooted_stepNumber frames b nofun
  | integer => exact rooted_stepNumber frames b nofun
  | fraction => exact rooted_stepNumber frames b nofun
  | exponent => exact rooted_stepNumber frames b nofun
  | word letters =>
    cases letters with
    | nil => trivial
    | cons letter letters => exact rooted_ite trivial (rooted_ite (rooted_endValue frames) nofun)
  | text isKey =>
    refine rooted_ite (rooted_ite nofun (rooted_endValue frames)) ?_
    exact rooted_ite nofun (rooted_ite trivial nofun)
  | colon => exact rooted_ite nofun (rooted_ite nofun trivial)
  | escape isKey => exact rooted_ite nofun (rooted_ite nofun trivial)
  | hex isKey digits => exact rooted_ite nofun (rooted_ite nofun trivial)
  | minus => exact rooted_ite nofun (rooted_ite nofun trivial)
  | point => exact rooted_ite nofun trivial
  | exponentMark => exact rooted_ite nofun (rooted_ite nofun trivial)
  | exponentSign => exact rooted_ite nofun trivial

end Rooted

/-- At the end of a value that stands alone, the machine is behind it. -/
private theorem skip_at_end {state : SkipState} {frames : List Frame} (hopened : state = .opened → frames ≠ [])
    (h : skip state frames [] = .ok ((), [])) : frames = [] ∧ (state = .after ∨ state.endsNumber = true) := by
  have hend : skipEnd state frames = none := by
    cases hcause : skipEnd state frames with
    | none => rfl
    | some cause => simp only [skip, hcause, failHere, reduceCtorEq] at h
  cases frames with
  | nil =>
    refine ⟨rfl, ?_⟩
    cases state with
    | opened => exact absurd rfl (hopened rfl)
    | after => exact .inl rfl
    | zero => exact .inr rfl
    | integer => exact .inr rfl
    | fraction => exact .inr rfl
    | exponent => exact .inr rfl
    | _ => cases hend
  | cons frame frames => cases state <;> cases hend

/-- What the machine gets through alone, it gets through inside other brackets and before a delimiter. -/
theorem skip_append {state : SkipState} {frames : List Frame} {bs : Bytes} (hopened : state = .opened → frames ≠ [])
    (h : skip state frames bs = .ok ((), [])) (outer : List Frame) {rest : Bytes} (hrest : Delimited rest) :
    skip state (frames ++ outer) (bs ++ rest) = skip .after outer rest := by
  -- by induction on the bytes of the value; its last step is the first one at which the brackets outside matter
  induction bs generalizing state frames with
  | nil =>
    obtain ⟨rfl, rfl | hnumber⟩ := skip_at_end hopened h
    · rfl
    · exact skip_ended hnumber outer hrest
  | cons b bs ih =>
    have hroot := rooted_skipStep frames b state
    rw [List.cons_append]
    cases hstep : skipStep state frames b with
    | next state' frames' =>
      rw [hstep] at hroot
      have hinside : skipStep state (frames ++ outer) b = .next state' (frames' ++ outer) := by
        rw [skipStep_append (by rw [hstep]; nofun), hstep, SkipStep.inside_next]
      rw [skip_of_next hstep] at h
      rw [skip_of_next hinside, ih hroot h]
    | done taken =>
      simp only [skip, hstep] at h
      cases taken with
      | false => simp at h
      | true =>
        have hinside : skipStep state (frames ++ outer) b = endValue outer := by
          rw [skipStep_append (by rw [hstep]; nofun), hstep]
          rfl
        have hlast : bs = [] := by simpa using h
        rw [skip_of_endValue hinside, hlast, List.nil_append]
    | fail cause counted =>
      simp only [skip, hstep, failHere, reduceCtorEq] at h

/-- The rest of a word is its letters. -/
private theorem eq_of_skip_word {letters s : Bytes} (hne : letters ≠ [])
    (h : skip (.word letters) [] s = .ok ((), [])) : s = letters := by
  induction letters generalizing s with
  | nil => exact absurd rfl hne
  | cons letter letters ih =>
    cases s with
    | nil => cases h
    | cons b s =>
      by_cases hb : b = letter
      · subst hb
        cases letters with
        | nil =>
          have hend : skipStep (.word [b]) [] b = endValue [] := by simp [skipStep]
          rw [skip_of_endValue hend, skip_after_nil] at h
          rw [(Prod.mk.inj (Except.ok.inj h)).2]
        | cons next letters =>
          have hnext : skipStep (.word (b :: next :: letters)) [] b = .next (.word (next :: letters)) [] := by
            simp [skipStep]
          rw [skip_of_next hnext] at h
          rw [ih (List.cons_ne_nil _ _) h]
      · have hfail : skipStep (.word (letter :: letters)) [] b = .fail .wantsWord true := by simp [skipStep, hb]
        simp only [skip, hfail, failHere, reduceCtorEq] at h

/-- The bytes are one value as it stands, without blanks around it. -/
def IsRaw (bs : Bytes) : Prop := written bs = .ok (bs, [])

/-- The written form of no value. -/
def nullText : Bytes := 110 :: nullTail

/-- What comes after blanks starts with no blank. -/
theorem isBlank_of_skipBlank {b : UInt8} {s rest : Bytes} (h : skipBlank s = b :: rest) : isBlank b = false := by
  have hne : skipBlank s ≠ [] := by
    rw [h]
    exact List.cons_ne_nil b rest
  have hhead : isBlank ((skipBlank s).head hne) = false := List.head_dropWhile_not isBlank hne
  simpa only [h, List.head_cons] using hhead

theorem skipBlank_skipBlank (s : Bytes) : skipBlank (skipBlank s) = skipBlank s := by
  cases h : skipBlank s with
  | nil => rfl
  | cons b rest => exact skipBlank_cons (isBlank_of_skipBlank h) rest

namespace IsRaw

variable {bs : Bytes}

/-- A raw value starts with its first byte, the machine gets through it, and it is valid UTF-8. -/
private theorem skipped (h : IsRaw bs) :
    skipBlank bs = bs ∧ skip .value [] bs = .ok ((), []) ∧ (Utf8.decode? bs).isSome = true := by
  unfold IsRaw written at h
  dsimp only at h
  cases hskip : skipValue (skipBlank bs) with
  | error e =>
    rw [hskip] at h
    cases h
  | ok p =>
    obtain ⟨⟨⟩, rest⟩ := p
    rw [hskip, Result.andThen_ok] at h
    split at h
    · next htext =>
      simp only [Except.ok.injEq, Prod.mk.injEq] at h
      obtain ⟨htake, rfl⟩ := h
      rw [List.length_nil, Nat.sub_zero, List.take_length] at htake htext
      rw [htake] at hskip htext
      exact ⟨htake, hskip, htext⟩
    · cases h

theorem of_skipped (hblank : skipBlank bs = bs) (hskip : skip .value [] bs = .ok ((), []))
    (htext : (Utf8.decode? bs).isSome = true) : IsRaw bs := by
  simp only [IsRaw, written, hblank, skipValue, hskip, Result.andThen_ok, List.length_nil, Nat.sub_zero, List.take_length,
    htext, ↓reduceIte]

/-- A raw value starts with a byte that is neither a blank nor a closing bracket. -/
theorem exists_eq_cons (h : IsRaw bs) : ∃ b rest, bs = b :: rest ∧ isBlank b = false ∧ b ≠ closeList := by
  obtain ⟨hblank, hskip, -⟩ := h.skipped
  cases bs with
  | nil => cases hskip
  | cons b rest =>
    refine ⟨b, rest, rfl, ?_, ?_⟩
    · exact isBlank_of_skipBlank hblank
    · rintro rfl
      cases hskip

/-- Only `null` starts with an `n`. -/
theorem eq_nullText {rest : Bytes} (h : IsRaw (110 :: rest)) : 110 :: rest = nullText := by
  have hword : skip (.word nullTail) [] rest = .ok ((), []) := h.skipped.2.1
  rw [eq_of_skip_word (List.cons_ne_nil _ _) hword]
  rfl

/-- The machine gets through a raw value and stands behind it. -/
theorem skip_value (h : IsRaw bs) (frames : List Frame) {rest : Bytes} (hrest : Delimited rest) :
    skip .value frames (bs ++ rest) = skip .after frames rest := by
  have hopened : SkipState.value = .opened → ([] : List Frame) ≠ [] := nofun
  exact skip_append hopened h.skipped.2.1 frames hrest

theorem isText (h : IsRaw bs) : Utf8.IsText bs := by
  obtain ⟨s, hs⟩ := Option.isSome_iff_exists.1 h.skipped.2.2
  exact ⟨s, Utf8.encode_of_decode? hs⟩

end IsRaw

/-- A raw value is kept as it stands. -/
theorem reads_raw {bs : Bytes} (h : IsRaw bs) : Reads written (.written bs) bs := by
  intro rest hrest
  obtain ⟨b, s, hb, hblank, -⟩ := h.exists_eq_cons
  have hstart : skipBlank (bs ++ rest) = bs ++ rest := by
    rw [hb, List.cons_append, skipBlank_cons hblank]
  have htake : (bs ++ rest).take ((bs ++ rest).length - rest.length) = bs := by
    rw [List.length_append, Nat.add_sub_cancel, List.take_left]
  show written (bs ++ rest) = _
  simp only [written, hstart, skipValue, h.skip_value [] hrest, skip_after_nil, Result.andThen_ok, htake, h.skipped.2.2,
    ↓reduceIte]

end SecretsGateway.Json
