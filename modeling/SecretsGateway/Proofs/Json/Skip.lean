import SecretsGateway.Proofs.Json.Raw

/-!
# Skipping what was written

The machine that skips a value gets through every written value, byte by byte, and stands behind it with the same brackets
open as before (`skip_write`). A written value is valid UTF-8 too, so it is a raw value (`isRaw_write`).
-/

namespace SecretsGateway.Json

private theorem skip_unicode {isKey : Bool} {d₁ d₂ d₃ d₄ : UInt8} (frames : List Frame) (rest : Bytes)
    (h : (hexNumber? [d₁, d₂, d₃, d₄]).isSome = true) :
    skip (.text isKey) frames ([92, 117, d₁, d₂, d₃, d₄] ++ rest) = skip (.text isKey) frames rest := by
  change skip (.hex isKey []) frames (d₁ :: d₂ :: d₃ :: d₄ :: rest) = _
  simp [skip, skipStep, h]

private theorem skip_escape (isKey : Bool) (frames : List Frame) (b : UInt8) (rest : Bytes) :
    skip (.text isKey) frames (escape b ++ rest) = skip (.text isKey) frames rest := by
  unfold escape
  split
  · rfl
  split
  · rfl
  split
  · rfl
  split
  · rfl
  split
  · rfl
  split
  · rfl
  split
  · rfl
  split
  · next hb =>
    have hnumber := (hexNumber?_control b.toNat (UInt8.lt_iff_toNat_lt.1 hb)).1
    exact skip_unicode frames rest (Option.isSome_of_eq_some hnumber)
  · next hquote hbackslash _ _ _ _ _ hb =>
    exact skip_of_next (by simp [skipStep, hquote, hbackslash, hb])

private theorem skip_escapes (isKey : Bool) (frames : List Frame) (bs rest : Bytes) :
    skip (.text isKey) frames (bs.flatMap escape ++ rest) = skip (.text isKey) frames rest := by
  induction bs with
  | nil => rfl
  | cons b bs ih => rw [List.flatMap_cons, List.append_assoc, skip_escape, ih]

private theorem skip_writeText (frames : List Frame) (t : String) (rest : Bytes) :
    skip .value frames (writeText t ++ rest) = skip .after frames rest := by
  rw [writeText_append]
  show skip (.text false) frames _ = _
  rw [skip_escapes]
  exact skip_of_endValue rfl

private theorem skip_key (frames : List Frame) (t : String) (rest : Bytes) :
    skip .key frames (writeText t ++ colon :: rest) = skip .value frames rest := by
  rw [writeText_append]
  show skip (.text true) frames _ = _
  rw [skip_escapes]
  rfl

private theorem skip_digits (frames : List Frame) {ds : Bytes} (h : ∀ b ∈ ds, Decimal.isDigit b = true) (rest : Bytes) :
    skip .integer frames (ds ++ rest) = skip .integer frames rest := by
  induction ds with
  | nil => rfl
  | cons b ds ih =>
    have hstep : skipStep .integer frames b = .next .integer frames := by
      simp [skipStep, stepNumber, h b List.mem_cons_self]
    rw [List.cons_append, skip_of_next hstep]
    exact ih fun c hc => h c (List.mem_cons_of_mem b hc)

private theorem skip_natural {state : SkipState} (hstate : state = .value ∨ state = .minus) (frames : List Frame) (n : Nat)
    {rest : Bytes} (h : Delimited rest) : skip state frames (Decimal.digits n ++ rest) = skip .after frames rest := by
  obtain ⟨b, ds, hds, hdigit, hzero⟩ := digits_eq_cons n
  have hall := List.all_eq_true.1 (Decimal.all_isDigit_digits n)
  rcases Nat.eq_zero_or_pos n with rfl | hpos
  · have hstep : skipStep state frames zero = .next .zero frames := by
      rcases hstate with rfl | rfl <;> rfl
    rw [digits_zero, List.singleton_append, skip_of_next hstep]
    exact skip_ended rfl frames h
  · have hstep : skipStep state frames b = .next .integer frames := by
      have hb := hzero hpos
      have hquote : b ≠ quote := ne_of_isDigit hdigit rfl
      have hlist : b ≠ openList := ne_of_isDigit hdigit rfl
      have hobject : b ≠ openObject := ne_of_isDigit hdigit rfl
      have hminus : b ≠ minus := ne_of_isDigit hdigit rfl
      rcases hstate with rfl | rfl
      · simp [skipStep, stepValue, not_isBlank_of_isDigit hdigit, hquote, hlist, hobject, hminus, hb, hdigit]
      · simp [skipStep, hb, hdigit]
    rw [hds] at hall ⊢
    rw [List.cons_append, skip_of_next hstep, skip_digits frames fun c hc => hall c (List.mem_cons_of_mem b hc)]
    exact skip_ended rfl frames h

private theorem skip_ofInt (frames : List Frame) (i : Int) {rest : Bytes} (h : Delimited rest) :
    skip .value frames (Decimal.ofInt i ++ rest) = skip .after frames rest := by
  unfold Decimal.ofInt
  split
  · exact skip_natural (.inr rfl) frames i.natAbs h
  · exact skip_natural (.inl rfl) frames i.natAbs h

mutual

/-- Every part of the value that is already written is a raw value. -/
def Value.Sound : Value → Prop
  | .written bs => IsRaw bs
  | .list items => SoundItems items
  | .object members => SoundMembers members
  | _ => True

def Value.SoundItems : List Value → Prop
  | [] => True
  | v :: vs => v.Sound ∧ SoundItems vs

def Value.SoundMembers : List (String × Value) → Prop
  | [] => True
  | (_, v) :: ms => v.Sound ∧ SoundMembers ms

end

/-- A written value starts with a byte that is neither a blank nor a closing bracket. -/
theorem exists_write_eq_cons (v : Value) (h : v.Sound) :
    ∃ b bs, v.write = b :: bs ∧ isBlank b = false ∧ b ≠ closeList := by
  cases v with
  | null => exact ⟨110, _, rfl, rfl, by decide⟩
  | bool b => cases b <;> exact ⟨_, _, rfl, rfl, by decide⟩
  | text t => exact ⟨34, _, rfl, rfl, by decide⟩
  | written bs => exact IsRaw.exists_eq_cons h
  | list items => exact ⟨91, _, rfl, rfl, by decide⟩
  | object members => exact ⟨123, _, rfl, rfl, by decide⟩
  | int i =>
    obtain ⟨b, ds, hds, hdigit, -⟩ := digits_eq_cons i.natAbs
    rw [Value.write, Decimal.ofInt]
    split
    · exact ⟨45, _, rfl, rfl, by decide⟩
    · exact ⟨b, ds, hds, not_isBlank_of_isDigit hdigit, ne_of_isDigit hdigit rfl⟩

private theorem writeItems_cons_cons (v u : Value) (vs : List Value) :
    Value.writeItems (v :: u :: vs) = v.write ++ comma :: Value.writeItems (u :: vs) := rfl

private theorem writeMembers_cons_cons (name : String) (v : Value) (m : String × Value) (ms : List (String × Value)) :
    Value.writeMembers ((name, v) :: m :: ms) = writeText name ++ colon :: (v.write ++ comma :: Value.writeMembers (m :: ms)) :=
  rfl

private theorem exists_writeItems_eq_append (v : Value) (vs : List Value) :
    ∃ tail, Value.writeItems (v :: vs) = v.write ++ tail := by
  cases vs with
  | nil => exact ⟨[], by rw [Value.writeItems, List.append_nil]⟩
  | cons u vs => exact ⟨_, writeItems_cons_cons v u vs⟩

private theorem exists_writeMembers_eq_cons (m : String × Value) (ms : List (String × Value)) :
    ∃ tail, Value.writeMembers (m :: ms) = quote :: tail := by
  obtain ⟨name, v⟩ := m
  cases ms with
  | nil => exact ⟨_, rfl⟩
  | cons m ms => exact ⟨_, rfl⟩

mutual

/-- The machine gets through a written value and stands behind it. -/
theorem skip_write : (v : Value) → v.Sound → (frames : List Frame) → (rest : Bytes) → Delimited rest →
    skip .value frames (v.write ++ rest) = skip .after frames rest
  | .null, _, frames, rest, _ => skip_of_endValue (b := 108) rfl
  | .bool true, _, frames, rest, _ => skip_of_endValue (b := 101) rfl
  | .bool false, _, frames, rest, _ => skip_of_endValue (b := 101) rfl
  | .int i, _, frames, rest, hrest => skip_ofInt frames i hrest
  | .text t, _, frames, rest, _ => skip_writeText frames t rest
  | .written bs, h, frames, rest, hrest => IsRaw.skip_value h frames hrest
  | .list items, h, frames, rest, _ => by
    have hwrite : (Value.list items).write ++ rest = openList :: (Value.writeItems items ++ closeList :: rest) := by
      simp [Value.write]
    rw [hwrite, skip_of_next (show skipStep .value frames openList = .next .opened (.list :: frames) from rfl)]
    exact skip_opened_writeItems items h frames rest
  | .object members, h, frames, rest, _ => by
    have hwrite : (Value.object members).write ++ rest =
        openObject :: (Value.writeMembers members ++ closeObject :: rest) := by
      simp [Value.write]
    rw [hwrite, skip_of_next (show skipStep .value frames openObject = .next .opened (.object :: frames) from rfl)]
    exact skip_opened_writeMembers members h frames rest

theorem skip_opened_writeItems : (items : List Value) → Value.SoundItems items → (frames : List Frame) → (rest : Bytes) →
    skip .opened (.list :: frames) (Value.writeItems items ++ closeList :: rest) = skip .after frames rest
  | [], _, frames, rest => skip_of_endValue rfl
  | v :: vs, h, frames, rest => by
    obtain ⟨b, bs, hb, hblank, hclose⟩ := exists_write_eq_cons v h.1
    obtain ⟨tail, htail⟩ := exists_writeItems_eq_append v vs
    have hitems := skip_writeItems (v :: vs) h (by simp) frames rest
    rw [htail, hb, List.cons_append, List.cons_append] at hitems ⊢
    rw [← hitems]
    exact skip_opened_list hblank hclose

theorem skip_writeItems : (items : List Value) → Value.SoundItems items → items ≠ [] → (frames : List Frame) →
    (rest : Bytes) →
    skip .value (.list :: frames) (Value.writeItems items ++ closeList :: rest) = skip .after frames rest
  | [], _, hne, _, _ => absurd rfl hne
  | [v], h, _, frames, rest => by
    rw [Value.writeItems, skip_write v h.1 _ _ (delimited_closeList rest)]
    exact skip_of_endValue rfl
  | v :: u :: vs, h, _, frames, rest => by
    rw [writeItems_cons_cons, List.append_assoc, List.cons_append, skip_write v h.1 _ _ (delimited_comma _)]
    exact skip_writeItems (u :: vs) h.2 (by simp) frames rest

theorem skip_opened_writeMembers : (members : List (String × Value)) → Value.SoundMembers members →
    (frames : List Frame) → (rest : Bytes) →
    skip .opened (.object :: frames) (Value.writeMembers members ++ closeObject :: rest) = skip .after frames rest
  | [], _, frames, rest => skip_of_endValue rfl
  | m :: ms, h, frames, rest => by
    obtain ⟨tail, htail⟩ := exists_writeMembers_eq_cons m ms
    have hmembers := skip_writeMembers (m :: ms) h (by simp) frames rest
    rw [htail, List.cons_append] at hmembers ⊢
    rw [← hmembers]
    rfl

theorem skip_writeMembers : (members : List (String × Value)) → Value.SoundMembers members → members ≠ [] →
    (frames : List Frame) → (rest : Bytes) →
    skip .key (.object :: frames) (Value.writeMembers members ++ closeObject :: rest) = skip .after frames rest
  | [], _, hne, _, _ => absurd rfl hne
  | [(name, v)], h, _, frames, rest => by
    rw [Value.writeMembers, List.append_assoc, List.cons_append, skip_key, skip_write v h.1 _ _ (delimited_closeObject rest)]
    exact skip_of_endValue rfl
  | (name, v) :: m :: ms, h, _, frames, rest => by
    rw [writeMembers_cons_cons, List.append_assoc, List.cons_append, skip_key, List.append_assoc, List.cons_append,
      skip_write v h.1 _ _ (delimited_comma _)]
    exact skip_writeMembers (m :: ms) h.2 (by simp) frames rest

end

/-! ### Written values are texts -/

open Utf8 (IsText isText_of_ascii isText_of_all isText_singleton)

private theorem all_escape_of_lt : ∀ n < 128, (escape (UInt8.ofNat n)).all (fun b => b < 128) = true := by decide

private theorem escape_of_le {b : UInt8} (h : 128 ≤ b) : escape b = [b] := by
  have hb := UInt8.le_iff_toNat_le.1 h
  have hne : ∀ c : UInt8, c.toNat < 128 → b ≠ c := by
    rintro c hc rfl
    exact absurd hb (Nat.not_le.2 hc)
  have hcontrol : ¬ b < 32 := by
    rw [UInt8.lt_iff_toNat_lt]
    exact fun hlt => absurd hb (Nat.not_le.2 (Nat.lt_trans hlt (by decide)))
  simp [escape, hne 34 (by decide), hne 92 (by decide), hne 8 (by decide), hne 9 (by decide), hne 10 (by decide),
    hne 12 (by decide), hne 13 (by decide), hcontrol]

private theorem escapes_of_le {bs : Bytes} (h : ∀ b ∈ bs, 128 ≤ b) : bs.flatMap escape = bs := by
  induction bs with
  | nil => rfl
  | cons b bs ih =>
    rw [List.flatMap_cons, escape_of_le (h b List.mem_cons_self), ih fun c hc => h c (List.mem_cons_of_mem b hc)]
    rfl

private theorem isText_escapes_char (c : Char) : IsText ((String.utf8EncodeChar c).flatMap escape) := by
  rcases Utf8.encodeChar_cases c with ⟨b, hb, hc⟩ | hc
  · rw [hc, List.flatMap_singleton]
    have hascii := all_escape_of_lt b.toNat (UInt8.lt_iff_toNat_lt.1 hb)
    rw [UInt8.ofNat_toNat] at hascii
    exact isText_of_all hascii
  · rw [escapes_of_le hc]
    exact ⟨String.ofList [c], by rw [Utf8.encode_ofList, List.flatMap_singleton]⟩

private theorem isText_escapes (s : String) : IsText ((Utf8.encode s).flatMap escape) := by
  obtain ⟨cs, rfl⟩ : ∃ cs, String.ofList cs = s := ⟨s.toList, String.ofList_toList⟩
  rw [Utf8.encode_ofList]
  induction cs with
  | nil => exact ⟨"", rfl⟩
  | cons c cs ih =>
    rw [List.flatMap_cons, List.flatMap_append]
    exact (isText_escapes_char c).append ih

private theorem isText_writeText (s : String) : IsText (writeText s) := by
  have hquote : IsText [quote] := isText_singleton (by decide)
  exact hquote.append ((isText_escapes s).append hquote)

private theorem isText_digits (n : Nat) : IsText (Decimal.digits n) := by
  refine isText_of_ascii fun b hb => ?_
  have hdigit := List.all_eq_true.1 (Decimal.all_isDigit_digits n) b hb
  simp only [Decimal.isDigit, Bool.and_eq_true, decide_eq_true_eq] at hdigit
  exact UInt8.lt_of_le_of_lt hdigit.2 (by decide)

private theorem isText_ofInt (i : Int) : IsText (Decimal.ofInt i) := by
  unfold Decimal.ofInt
  split
  · exact (show IsText [45] from isText_singleton (by decide)).append (isText_digits _)
  · exact isText_digits _

private theorem isText_byte_cons {b : UInt8} (hb : b < 128) {bs : Bytes} (h : IsText bs) : IsText (b :: bs) :=
  (isText_singleton hb).append h

mutual

private theorem isText_write : (v : Value) → v.Sound → IsText v.write
  | .null, _ => isText_of_all (by decide)
  | .bool true, _ => isText_of_all (by decide)
  | .bool false, _ => isText_of_all (by decide)
  | .int i, _ => isText_ofInt i
  | .text t, _ => isText_writeText t
  | .written bs, h => IsRaw.isText h
  | .list items, h =>
    isText_byte_cons (by decide) ((isText_writeItems items h).append (show IsText [93] from isText_singleton (by decide)))
  | .object members, h =>
    isText_byte_cons (by decide)
      ((isText_writeMembers members h).append (show IsText [125] from isText_singleton (by decide)))

theorem isText_writeItems : (items : List Value) → Value.SoundItems items → IsText (Value.writeItems items)
  | [], _ => ⟨"", rfl⟩
  | [v], h => isText_write v h.1
  | v :: u :: vs, h => by
    rw [writeItems_cons_cons]
    exact (isText_write v h.1).append (isText_byte_cons (by decide) (isText_writeItems (u :: vs) h.2))

theorem isText_writeMembers : (members : List (String × Value)) → Value.SoundMembers members →
    IsText (Value.writeMembers members)
  | [], _ => ⟨"", rfl⟩
  | [(name, v)], h => (isText_writeText name).append (isText_byte_cons (by decide) (isText_write v h.1))
  | (name, v) :: m :: ms, h => by
    rw [writeMembers_cons_cons]
    have hrest := isText_byte_cons (b := comma) (by decide) (isText_writeMembers (m :: ms) h.2)
    exact (isText_writeText name).append (isText_byte_cons (by decide) ((isText_write v h.1).append hrest))

end

/-- A written value is a raw value. -/
theorem isRaw_write {v : Value} (h : v.Sound) : IsRaw v.write := by
  obtain ⟨b, bs, hb, hblank, -⟩ := exists_write_eq_cons v h
  have hskip := skip_write v h [] [] delimited_nil
  rw [List.append_nil, skip_after_nil] at hskip
  refine .of_skipped ?_ hskip (isText_write v h).isSome_decode?
  rw [hb, skipBlank_cons hblank]

end SecretsGateway.Json
