import SecretsGateway.Proofs.Json.Raw
import SecretsGateway.Secret.Wire

/-!
# What has been read

The other direction: what can be said of a value because it was read, whatever the document looked like. The machine that
skips a value gets through what it takes even if nothing follows (`exists_append_of_skip`), so a value that is taken over as
it stands is a raw value (`isRaw_of_written`). A record is finished from a draft, and the draft has every property that it has
at the start and that reading a member keeps (`Shape.exists_of_read`).
-/

namespace SecretsGateway.Json

private theorem exists_of_andThen_eq_ok {α β : Type} {r : Result α} {next : α → Bytes → Result β} {b : β} {rest : Bytes}
    (h : r.andThen next = .ok (b, rest)) : ∃ a s, r = .ok (a, s) ∧ next a s = .ok (b, rest) := by
  cases r with
  | error e => cases h
  | ok p => exact ⟨p.1, p.2, rfl, h⟩

section Skip

variable {state : SkipState} {frames : List Frame} {b : UInt8} {s rest : Bytes}

private theorem endValue_ne_done (frames : List Frame) : endValue frames ≠ .done false := by
  cases frames <;> nofun

private theorem ite_ne_done {p : Prop} [Decidable p] {step step' : SkipStep} (h : step ≠ .done false)
    (h' : step' ≠ .done false) : (if p then step else step') ≠ .done false := by
  by_cases hp : p
  · rwa [if_pos hp]
  · rwa [if_neg hp]

private theorem stepKey_ne_done : stepKey frames b ≠ .done false := by
  unfold stepKey
  repeat' apply ite_ne_done
  all_goals nofun

private theorem stepValue_ne_done : stepValue frames b ≠ .done false := by
  unfold stepValue
  repeat' apply ite_ne_done
  all_goals nofun

private theorem eq_nil_of_stepAfter (h : stepAfter frames b = .done false) : frames = [] := by
  cases frames with
  | nil => rfl
  | cons frame frames =>
    simp only [stepAfter] at h
    split_ifs at h
    exact absurd h (endValue_ne_done frames)

private theorem eq_nil_of_stepOpened (h : stepOpened frames b = .done false) : frames = [] := by
  cases frames with
  | nil => rfl
  | cons frame frames =>
    simp only [stepOpened] at h
    split_ifs at h
    · exact absurd h (endValue_ne_done frames)
    · cases frame with
      | list => exact absurd h stepValue_ne_done
      | object => exact absurd h stepKey_ne_done

private theorem eq_nil_of_stepNumber (h : stepNumber state frames b = .done false) : frames = [] := by
  unfold stepNumber at h
  split_ifs at h
  exact eq_nil_of_stepAfter h

/-- A value that ended before a byte could have ended there for good. -/
private theorem skipEnd_of_done (h : skipStep state frames b = .done false) : skipEnd state frames = none := by
  cases state with
  | value => exact absurd h stepValue_ne_done
  | key => exact absurd h stepKey_ne_done
  | opened =>
    rw [eq_nil_of_stepOpened h]
    rfl
  | after =>
    rw [eq_nil_of_stepAfter h]
    rfl
  | zero | integer | fraction | exponent =>
    rw [eq_nil_of_stepNumber h]
    rfl
  | word letters =>
    cases letters with
    | nil => cases h
    | cons letter letters => exact absurd h (ite_ne_done nofun (ite_ne_done (endValue_ne_done frames) nofun))
  | text isKey =>
    have hquote : (if isKey then SkipStep.next .colon frames else endValue frames) ≠ .done false :=
      ite_ne_done nofun (endValue_ne_done frames)
    exact absurd h (ite_ne_done hquote (ite_ne_done nofun (ite_ne_done nofun nofun)))
  | point | exponentSign => exact absurd h (ite_ne_done nofun nofun)
  | colon | escape | hex | minus | exponentMark => exact absurd h (ite_ne_done nofun (ite_ne_done nofun nofun))

/-- The machine takes a beginning of what it is given, and it would get through that alone. -/
theorem exists_append_of_skip (h : skip state frames s = .ok ((), rest)) :
    ∃ bs, s = bs ++ rest ∧ skip state frames bs = .ok ((), []) := by
  induction s generalizing state frames with
  | nil =>
    have hrest : rest = [] := by
      unfold skip at h
      split at h
      · cases h
      · cases h
        rfl
    subst hrest
    exact ⟨[], rfl, h⟩
  | cons b s ih =>
    cases hstep : skipStep state frames b with
    | next state' frames' =>
      rw [skip_of_next hstep] at h
      obtain ⟨bs, rfl, hbs⟩ := ih h
      exact ⟨b :: bs, rfl, (skip_of_next hstep).trans hbs⟩
    | done taken =>
      simp only [skip, hstep, Except.ok.injEq, Prod.mk.injEq, true_and] at h
      cases taken with
      | true =>
        refine ⟨[b], congrArg (b :: ·) h, ?_⟩
        simp only [skip, hstep, ↓reduceIte]
      | false =>
        -- a number ends at a byte that is not taken any more
        refine ⟨[], h, ?_⟩
        simp only [skip, skipEnd_of_done hstep]
    | fail cause counted =>
      simp only [skip, hstep, failHere, reduceCtorEq] at h

end Skip

/-- A value that is taken over as it stands is what comes after the blanks, and it is a raw value. -/
theorem isRaw_of_written {s bs rest : Bytes} (h : written s = .ok (bs, rest)) : skipBlank s = bs ++ rest ∧ IsRaw bs := by
  obtain ⟨⟨⟩, rest', hskip, h⟩ := exists_of_andThen_eq_ok h
  obtain ⟨bs', hs, hbs'⟩ := exists_append_of_skip hskip
  have htake : (skipBlank s).take ((skipBlank s).length - rest'.length) = bs' := by
    rw [hs, List.length_append, Nat.add_sub_cancel, List.take_left]
  dsimp only at h
  rw [htake] at h
  split at h
  · next htext =>
    cases h
    refine ⟨hs, IsRaw.of_skipped ?_ hbs' htext⟩
    cases bs with
    | nil => rfl
    | cons b bs => exact skipBlank_cons (isBlank_of_skipBlank hs) bs
  · cases h

/-- Where a value may be left out, one that is taken over is not `null`. -/
theorem isRaw_of_optional {s rest : Bytes} {found : Option Bytes} (h : optional written s = .ok (found, rest)) :
    ∀ p ∈ found, IsRaw p ∧ p ≠ nullText := by
  intro p hp
  unfold optional at h
  split at h
  · obtain ⟨⟨⟩, s', -, h⟩ := exists_of_andThen_eq_ok h
    cases h
    cases hp
  · next hnull =>
    obtain ⟨p', rest', hwritten, h⟩ := exists_of_andThen_eq_ok h
    cases h
    cases hp
    obtain ⟨hs, hraw⟩ := isRaw_of_written hwritten
    rw [skipBlank_skipBlank] at hs
    refine ⟨hraw, ?_⟩
    rintro rfl
    exact hnull _ hs

section Records

variable {δ α : Type} {P : δ → Prop}

/-- Reading the member keeps a property of drafts. -/
def Member.Keeps (P : δ → Prop) (m : Member δ) : Prop :=
  ∀ d s d' rest, P d → m.read d s = .ok (d', rest) → P d'

/-- A member that is set keeps a property if every value that can be read for it does. -/
theorem Member.keeps_of {β : Type} {name : String} {read : Bytes → Result β} {get : δ → Option β} {set : δ → β → δ}
    (h : ∀ d s b rest, P d → read s = .ok (b, rest) → P (set d b)) : (Member.of name read get set).Keeps P := by
  intro d s d' rest hd hread
  obtain ⟨b, rest', hb, hset⟩ := exists_of_andThen_eq_ok hread
  cases hset
  exact h d s b rest hd hb

variable {members : List (Member δ)} (hkeeps : ∀ m ∈ members, m.Keeps P) {first : Bool} {d d' : δ} {s rest : Bytes}

include hkeeps

private theorem keeps_member (hd : P d) (h : member members d s = .ok (d', rest)) : P d' := by
  obtain ⟨key, s', -, h⟩ := exists_of_andThen_eq_ok h
  split at h
  · next m hfind =>
    split at h
    · cases h
    · obtain ⟨⟨⟩, s'', -, h⟩ := exists_of_andThen_eq_ok h
      exact hkeeps m (List.mem_of_find?_eq_some hfind) d s'' d' rest hd h
  · obtain ⟨⟨⟩, s'', -, h⟩ := exists_of_andThen_eq_ok h
    obtain ⟨⟨⟩, s''', -, h⟩ := exists_of_andThen_eq_ok h
    cases h
    exact hd

private theorem keeps_objectMembers (hd : P d) (h : objectMembers members first d s = .ok (d', rest)) : P d' := by
  fun_induction objectMembers members first d s with
  | case1 first d s e hnext => cases h
  | case2 first d s hnext =>
    cases h
    exact hd
  | case3 first d s inside hnext e hmember => cases h
  | case4 first d s inside hnext d'' rest' hmember hshorter ih => exact ih (keeps_member hkeeps hd hmember) h
  | case5 first d s inside hnext d'' rest' hmember hshorter => cases h

private theorem keeps_arrayMembers (hd : P d) (h : arrayMembers members first d s = .ok (d', rest)) : P d' := by
  induction members generalizing first d s with
  | nil =>
    cases h
    exact hd
  | cons m members ih =>
    obtain ⟨hm, hmembers⟩ := List.forall_mem_cons.1 hkeeps
    unfold arrayMembers at h
    split at h
    · cases h
    · cases h
      exact hd
    · next element _ =>
      split at h
      · cases h
      · next d'' rest' hread => exact ih hmembers (hm d element d'' rest' hd hread) h

end Records

private theorem refuseNext_ne_ok {α : Type} (wanted : String) (s : Bytes) (p : α × Bytes) :
    refuseNext wanted s ≠ .ok p := by
  intro h
  unfold refuseNext at h
  cases s with
  | nil => cases h
  | cons b s =>
    dsimp only at h
    split_ifs at h
    all_goals first
      | cases h
      | obtain ⟨x, s', -, h⟩ := exists_of_andThen_eq_ok h
        cases h

private theorem eq_ok_of_settledAt {α : Type} {after : Bytes → Bytes} {r : Result α} {p : α × Bytes}
    (h : settledAt after r = .ok p) : r = .ok p := by
  cases r with
  | error e => cases h
  | ok q => exact h

section Shapes

variable {δ α : Type} {shape : Shape δ α} {s rest : Bytes} {a : α}

/-- A record that was closed was finished, whatever the brackets around it are. -/
private theorem exists_of_closed {after : Bytes → Bytes} {gathered : Result δ} {refusal : String → Bytes → Failure}
    {close : Bytes → Result Unit}
    (h : settledAt after (gathered.andThen fun draft s =>
      match shape.finish draft with
      | .error name => .error (refusal name s)
      | .ok a => (close s).andThen fun _ s => .ok (a, s)) = .ok (a, rest)) :
    ∃ d s', gathered = .ok (d, s') ∧ shape.finish d = .ok a := by
  obtain ⟨d, s', hgathered, h⟩ := exists_of_andThen_eq_ok (eq_ok_of_settledAt h)
  refine ⟨d, s', hgathered, ?_⟩
  split at h
  · cases h
  · next a' hfinish =>
    obtain ⟨⟨⟩, s'', -, h⟩ := exists_of_andThen_eq_ok h
    cases h
    exact hfinish

/-- A record that was read is made from a draft that has every property kept by its members. -/
theorem Shape.exists_of_read {P : δ → Prop} (hstart : P shape.start) (hkeeps : ∀ m ∈ shape.members, m.Keeps P)
    (h : shape.read s = .ok (a, rest)) : ∃ d, P d ∧ shape.finish d = .ok a := by
  unfold Shape.read at h
  split at h
  · cases h
  split_ifs at h
  · obtain ⟨d, s', hmembers, hfinish⟩ := exists_of_closed h
    exact ⟨d, keeps_arrayMembers hkeeps hstart hmembers, hfinish⟩
  · obtain ⟨d, s', hmembers, hfinish⟩ := exists_of_closed h
    exact ⟨d, keeps_objectMembers hkeeps hstart hmembers, hfinish⟩
  · exact absurd h (refuseNext_ne_ok _ _ _)

end Shapes

/-- What was read from a document was read by the reader. -/
theorem exists_of_decode {α : Type} {read : Bytes → Result α} {document : Bytes} {a : α}
    (h : decode read document = .ok a) : ∃ rest, read document = .ok (a, rest) := by
  unfold decode at h
  split at h
  · cases h
  · next a' rest hread =>
    split at h
    · cases h
      exact ⟨rest, hread⟩
    · cases h

end SecretsGateway.Json
