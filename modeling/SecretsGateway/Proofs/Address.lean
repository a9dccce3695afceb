import SecretsGateway.Proofs.Hex.Spelling
import SecretsGateway.Proofs.Message.Signed

/-!
# Accounts and their texts

An account is read from every text that spells its bytes: in capitals or not, with one mark or with none.
`Address.parse_judges` says which texts are refused, and with which error, and `Address.eq_iff_toLower` which of the others
are the same account. Accounts are in the order of the texts in which they are written, whether these are compared by
characters (`Address.compare_toHex`) or by bytes (`Address.compare_encode_toHex`).
-/

namespace SecretsGateway

/-- The number of bytes of some characters. -/
def Utf8.size (cs : List Char) : Nat := (String.ofList cs).utf8ByteSize

namespace Address

variable {s t : String} {digits digits' : List Char} {a b : Address}

/-- The marks of an account. -/
def marks : List (List Char) := [['0', 'x'], ['0', 'X']]

private theorem mem_marks_iff {mark : List Char} : mark ∈ marks ↔ mark = ['0', 'x'] ∨ mark = ['0', 'X'] := by
  simp [marks]

theorem unmarks_iff {cs : List Char} : Hex.Unmarks marks cs digits ↔ unmarked cs = digits := by
  constructor
  · intro h
    cases h with
    | marked hmark =>
      rcases mem_marks_iff.1 hmark with rfl | rfl
      · rfl
      · rfl
    | bare hbare =>
      unfold unmarked
      split
      · next rest => exact absurd ⟨rest, rfl⟩ (hbare _ (mem_marks_iff.2 (.inl rfl)))
      · next rest => exact absurd ⟨rest, rfl⟩ (hbare _ (mem_marks_iff.2 (.inr rfl)))
      · rfl
  · rintro rfl
    unfold unmarked
    split
    · next rest => exact @Hex.Unmarks.marked _ ['0', 'x'] rest (mem_marks_iff.2 (.inl rfl))
    · next rest => exact @Hex.Unmarks.marked _ ['0', 'X'] rest (mem_marks_iff.2 (.inr rfl))
    · next hlower hupper =>
      refine .bare fun mark hmark hprefix => ?_
      obtain ⟨rest, rfl⟩ := hprefix
      rcases mem_marks_iff.1 hmark with rfl | rfl
      · exact hlower rest rfl
      · exact hupper rest rfl

/-- What is left of a text without its mark decides whether an account is read, or why not. -/
private theorem parse_cases (h : Hex.Unmarks marks s.toList digits) :
    (∃ a, parse s = .ok a ∧ digits.length = 40 ∧ ∀ c ∈ digits, Hex.IsDigit c) ∨
    (parse s = .error (.length (Utf8.size digits)) ∧ Utf8.size digits ≠ 40) ∨
    (parse s = .error .digit ∧ Utf8.size digits = 40 ∧ ∃ c ∈ digits, ¬ Hex.IsDigit c) := by
  obtain rfl := unmarks_iff.1 h
  by_cases hsize : Utf8.size (unmarked s.toList) = 40
  · rcases parse_cases_of_size hsize with ⟨a, hparse⟩ | ⟨hparse, hbad⟩
    · have hspells := parse_eq_ok_iff.1 hparse
      refine .inl ⟨a, hparse, ?_, hspells.isDigit⟩
      rw [hspells.length, a.length_bytes]
    · exact .inr (.inr ⟨hparse, hsize, hbad⟩)
  · have hparse : parse s = .error (.length (Utf8.size (unmarked s.toList))) := by
      unfold parse
      exact if_pos hsize
    exact .inr (.inl ⟨hparse, hsize⟩)

/-- An account is read from forty digits, after at most one mark, and from nothing else. Other texts are refused for their
size if it is not forty bytes, and for a character that is no digit if it is. -/
theorem parse_judges (h : Hex.Unmarks marks s.toList digits) :
    ((∃ a, parse s = .ok a) ↔ digits.length = 40 ∧ ∀ c ∈ digits, Hex.IsDigit c) ∧
    (∀ n, parse s = .error (.length n) ↔ n = Utf8.size digits ∧ n ≠ 40) ∧
    (parse s = .error .digit ↔ Utf8.size digits = 40 ∧ ∃ c ∈ digits, ¬ Hex.IsDigit c) := by
  -- Digits have one byte each; other characters may have more, so that forty bytes can be fewer characters.
  have hforty : digits.length = 40 ∧ (∀ c ∈ digits, Hex.IsDigit c) → Utf8.size digits = 40 := by
    rintro ⟨hlength, hdigits⟩
    rw [Utf8.size, Hex.utf8ByteSize_of_isDigit hdigits, hlength]
  rcases parse_cases h with ⟨a, hparse, hgood⟩ | ⟨hparse, hsize⟩ | ⟨hparse, hsize, c, hc, hbad⟩
  · rw [hparse]
    refine ⟨iff_of_true ⟨a, rfl⟩ hgood, fun n => iff_of_false nofun ?_, iff_of_false nofun ?_⟩
    · rintro ⟨rfl, hne⟩
      exact hne (hforty hgood)
    · rintro ⟨-, c, hc, hbad⟩
      exact hbad (hgood.2 c hc)
  · rw [hparse]
    refine ⟨iff_of_false nofun fun hgood => hsize (hforty hgood), fun n => ⟨?_, ?_⟩,
      iff_of_false nofun fun hbad => hsize hbad.1⟩
    · rintro ⟨⟩
      exact ⟨rfl, hsize⟩
    · rintro ⟨rfl, -⟩
      rfl
  · rw [hparse]
    refine ⟨iff_of_false nofun fun hgood => hbad (hgood.2 c hc), fun n => iff_of_false nofun ?_,
      iff_of_true rfl ⟨hsize, c, hc, hbad⟩⟩
    rintro ⟨rfl, hne⟩
    exact hne hsize

private theorem eq_iff_bytes : a = b ↔ a.bytes = b.bytes := by
  constructor
  · rintro rfl
    rfl
  · intro h
    cases a
    cases b
    cases h
    rfl

/-- Two texts are the same account exactly if their digits agree up to the case of the letters. -/
theorem eq_iff_toLower (h : Hex.Unmarks marks s.toList digits) (h' : Hex.Unmarks marks t.toList digits')
    (hs : parse s = .ok a) (ht : parse t = .ok b) : a = b ↔ digits.map Char.toLower = digits'.map Char.toLower := by
  obtain rfl := unmarks_iff.1 h
  obtain rfl := unmarks_iff.1 h'
  rw [eq_iff_bytes, (parse_eq_ok_iff.1 hs).eq_iff (parse_eq_ok_iff.1 ht)]

/-- Bytes that are written with two signs each are in the order of what is written, if the signs are in the order of their
values. -/
private theorem flatMap_lt_flatMap_iff {α : Type} [LT α] (sign : Nat → α)
    (hlt : ∀ m < 16, ∀ n < 16, sign m < sign n ↔ m < n) (heq : ∀ m < 16, ∀ n < 16, sign m = sign n ↔ m = n) (bs bs' : Bytes) :
    (bs.flatMap fun b => [sign (b.toNat / 16), sign (b.toNat % 16)]) <
      (bs'.flatMap fun b => [sign (b.toNat / 16), sign (b.toNat % 16)]) ↔ bs < bs' := by
  induction bs generalizing bs' with
  | nil => cases bs' <;> simp
  | cons b bs ih =>
    cases bs' with
    | nil => simp
    | cons b' bs' =>
      have hb := b.toNat_lt
      have hb' := b'.toNat_lt
      have hbytes : b < b' ↔ b.toNat / 16 < b'.toNat / 16 ∨
          b.toNat / 16 = b'.toNat / 16 ∧ b.toNat % 16 < b'.toNat % 16 := by
        rw [UInt8.lt_iff_toNat_lt]
        omega
      have hsame : b = b' ↔ b.toNat / 16 = b'.toNat / 16 ∧ b.toNat % 16 = b'.toNat % 16 := by
        rw [← UInt8.toNat_inj]
        omega
      -- The higher half decides, then the lower half, then the rest.
      simp only [List.flatMap_cons, List.cons_append, List.nil_append, List.cons_lt_cons_iff, ih]
      rw [hlt _ (by omega) _ (by omega), hlt _ (by omega) _ (by omega), heq _ (by omega) _ (by omega),
        heq _ (by omega) _ (by omega), hbytes, hsame, and_or_left, or_assoc, and_assoc]

private theorem compareOfLessAndEq_congr {α β : Type} [LT α] [LT β] [DecidableLT α] [DecidableLT β] [DecidableEq α]
    [DecidableEq β] {x x' : α} {y y' : β} (hlt : x < x' ↔ y < y') (heq : x = x' ↔ y = y') :
    compareOfLessAndEq x x' = compareOfLessAndEq y y' := by
  simp only [compareOfLessAndEq, hlt, heq]

private theorem toHex_inj : a.toHex = b.toHex ↔ a = b := by
  constructor
  · intro h
    have hread := a.parse_toHex
    rw [h, b.parse_toHex] at hread
    exact (Except.ok.inj hread).symm
  · exact congrArg toHex

/-- Accounts are in the order of their written forms. -/
theorem compare_toHex (a b : Address) : compare a b = compare a.toHex b.toHex := by
  refine compareOfLessAndEq_congr ?_ (eq_iff_bytes.symm.trans toHex_inj.symm)
  rw [String.lt_iff, toList_toHex, toList_toHex, List.cons_lt_cons_iff, List.cons_lt_cons_iff]
  have horder := flatMap_lt_flatMap_iff Hex.digit (by decide) (by decide) a.bytes b.bytes
  simpa [Hex.encode] using horder.symm

/-- The byte of a digit. -/
private def code (n : Nat) : UInt8 := UInt8.ofNat (Hex.digit n).toNat

private theorem encodeChar_digit : ∀ n < 16, String.utf8EncodeChar (Hex.digit n) = [code n] := by decide

private theorem encode_toHex (a : Address) :
    Utf8.encode a.toHex = 48 :: 120 :: a.bytes.flatMap fun b => [code (b.toNat / 16), code (b.toNat % 16)] := by
  have hdigits : ∀ bs : Bytes, (Hex.encode bs).flatMap String.utf8EncodeChar =
      bs.flatMap fun b => [code (b.toNat / 16), code (b.toNat % 16)] := by
    intro bs
    rw [Hex.encode, List.flatMap_assoc]
    refine congrArg (bs.flatMap ·) (funext fun b => ?_)
    have hb := b.toNat_lt
    rw [List.flatMap_cons, List.flatMap_singleton, encodeChar_digit _ (by omega), encodeChar_digit _ (by omega)]
    rfl
  rw [toHex, Hex.marked, Utf8.encode_ofList, List.flatMap_cons, List.flatMap_cons, hdigits]
  rfl

/-- Accounts are in the order of the bytes of their written forms. -/
theorem compare_encode_toHex (a b : Address) :
    compare a b = compareOfLessAndEq (Utf8.encode a.toHex) (Utf8.encode b.toHex) := by
  have horder := flatMap_lt_flatMap_iff code (by decide) (by decide) a.bytes b.bytes
  refine compareOfLessAndEq_congr ?_ (eq_iff_bytes.symm.trans (toHex_inj.symm.trans ⟨congrArg _, Utf8.encode_injective⟩))
  rw [encode_toHex, encode_toHex, List.cons_lt_cons_iff, List.cons_lt_cons_iff, horder]
  simp

end Address

end SecretsGateway
