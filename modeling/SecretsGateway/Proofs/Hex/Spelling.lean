import SecretsGateway.Proofs.Hex

/-!
# Spellings

Bytes are spelt in capitals or not, and a text begins with a mark or not. `Hex.Unmarks` says what is left of a text when at
most one mark is taken away. Spellings of the same bytes differ in nothing but the case of their letters
(`Hex.Spells.eq_iff`), since all of them become the written form when there are no capitals left. As numbers to the base
sixteen they tell the number that the bytes stand for (`Hex.Spells.number_eq`).
-/

namespace SecretsGateway

namespace Hex

variable {c : Char} {cs cs' rest : List Char} {bs bs' : Bytes}

/-- `rest` is what is left of a text without the mark in front of it, and the whole text if there is none. -/
inductive Unmarks (marks : List (List Char)) : List Char → List Char → Prop
  | marked {mark rest : List Char} : mark ∈ marks → Unmarks marks (mark ++ rest) rest
  | bare {cs : List Char} : (∀ mark ∈ marks, ¬ mark <+: cs) → Unmarks marks cs cs

theorem unmarks_iff : Unmarks [['0', 'x']] cs rest ↔ unmarked cs = rest := by
  constructor
  · intro h
    cases h with
    | marked hmark =>
      obtain rfl := List.mem_singleton.1 hmark
      rfl
    | bare hbare =>
      unfold unmarked
      split
      · next rest => exact absurd ⟨rest, rfl⟩ (hbare _ (List.mem_singleton_self _))
      · rfl
  · rintro rfl
    unfold unmarked
    split
    · next rest => exact @Unmarks.marked _ ['0', 'x'] rest (List.mem_singleton_self _)
    · next hbare =>
      refine .bare fun mark hmark hprefix => ?_
      obtain rfl := List.mem_singleton.1 hmark
      obtain ⟨rest, rfl⟩ := hprefix
      exact hbare rest rfl

private theorem exists_ofNat_of_isDigit (h : IsDigit c) : ∃ n < 128, Char.ofNat n = c := by
  refine ⟨c.toNat, ?_, Char.ofNat_toNat c⟩
  have hsize := Char.utf8Size_eq_one_iff.1 (utf8Size_of_isDigit h)
  exact Nat.lt_succ_of_le (UInt32.le_iff_toNat_le.1 hsize)

private theorem toLower_ofNat : ∀ n < 128, ∀ m < 16, value? (Char.ofNat n) = some m → (Char.ofNat n).toLower = digit m := by
  decide

/-- Of the digits of a value the one that is no capital is the written one. -/
private theorem toLower_of_value? {m : Nat} (h : value? c = some m) : c.toLower = digit m := by
  obtain ⟨hdigit, hm⟩ := isDigit_of_value? h
  obtain ⟨n, hn, rfl⟩ := exists_ofNat_of_isDigit hdigit
  exact toLower_ofNat n hn m hm h

/-- Without capitals, whatever spells some bytes is their written form. -/
private theorem Spells.map_toLower (h : Spells cs bs) : cs.map Char.toLower = encode bs := by
  induction h with
  | nil => rfl
  | cons hhigh hlow _ ih =>
    rw [List.map_cons, List.map_cons, ih, toLower_of_value? hhigh, toLower_of_value? hlow]
    rfl

private theorem encode_inj : encode bs = encode bs' ↔ bs = bs' := by
  constructor
  · intro h
    have hread := congrArg decode? h
    rw [decode?_encode, decode?_encode] at hread
    exact Option.some.inj hread
  · exact congrArg encode

/-- Texts spell the same bytes exactly if they agree up to the case of their letters. -/
theorem Spells.eq_iff (h : Spells cs bs) (h' : Spells cs' bs') :
    bs = bs' ↔ cs.map Char.toLower = cs'.map Char.toLower := by
  rw [h.map_toLower, h'.map_toLower, encode_inj]

/-- The number that digits stand for, the highest first; any other character counts as zero. -/
def number (cs : List Char) : Nat := cs.foldl (fun n c => n * 16 + (value? c).getD 0) 0

private theorem foldl_digits (h : Spells cs bs) (n : Nat) :
    cs.foldl (fun n c => n * 16 + (value? c).getD 0) n = bs.foldl (fun n b => n * 256 + b.toNat) n := by
  induction h generalizing n with
  | nil => rfl
  | @cons high low b cs bs hhigh hlow _ ih =>
    have hbyte : (n * 16 + b.toNat / 16) * 16 + b.toNat % 16 = n * 256 + b.toNat := by omega
    rw [List.foldl_cons, List.foldl_cons, List.foldl_cons, ih, hhigh, hlow, Option.getD_some, Option.getD_some, hbyte]

/-- The digits of bytes stand for the same number as the bytes. -/
theorem Spells.number_eq (h : Spells cs bs) : number cs = bs.toNat := foldl_digits h 0

end Hex

end SecretsGateway
