import SecretsGateway.Address
import SecretsGateway.Proofs.Text.Utf8

/-!
# Hexadecimal text, read

`Hex.Spells` says which texts spell which bytes: two digits of either case for each byte. Reading gives the bytes of a text
exactly if the text spells them (`Hex.decode?_eq_some_iff`), and a text spells some bytes exactly if it consists of digits and
their number is even (`Hex.exists_spells_iff`). All digits are ASCII, so an account is read from a text exactly if the text
less its mark spells the twenty bytes of the account (`Address.parse_eq_ok_iff`).
-/

namespace SecretsGateway

namespace Hex

/-- A digit of either case. -/
def IsDigit (c : Char) : Prop := ('0' ≤ c ∧ c ≤ '9') ∨ ('a' ≤ c ∧ c ≤ 'f') ∨ ('A' ≤ c ∧ c ≤ 'F')

instance (c : Char) : Decidable (IsDigit c) := inferInstanceAs (Decidable (_ ∨ _))

/-- A text spells bytes: two digits for each of them, the higher half first. -/
inductive Spells : List Char → Bytes → Prop
  | nil : Spells [] []
  | cons {high low : Char} {b : UInt8} {cs : List Char} {bs : Bytes} : value? high = some (b.toNat / 16) →
      value? low = some (b.toNat % 16) → Spells cs bs → Spells (high :: low :: cs) (b :: bs)

variable {c : Char} {cs : List Char} {bs : Bytes}

private theorem toNat_le {c d : Char} (h : c ≤ d) : c.toNat ≤ d.toNat := UInt32.le_iff_toNat_le.1 h

/-- A digit has a value below sixteen, and nothing else has one. -/
private theorem value?_cases (c : Char) : (IsDigit c ∧ ∃ n < 16, value? c = some n) ∨ (¬ IsDigit c ∧ value? c = none) := by
  unfold value? IsDigit
  by_cases hdecimal : '0' ≤ c ∧ c ≤ '9'
  · have hle : c.toNat ≤ 57 := toNat_le hdecimal.2
    exact .inl ⟨.inl hdecimal, c.toNat - 48, by omega, if_pos hdecimal⟩
  by_cases hlower : 'a' ≤ c ∧ c ≤ 'f'
  · have hle : c.toNat ≤ 102 := toNat_le hlower.2
    refine .inl ⟨.inr (.inl hlower), c.toNat - 87, by omega, ?_⟩
    rw [if_neg hdecimal, if_pos hlower]
  by_cases hupper : 'A' ≤ c ∧ c ≤ 'F'
  · have hle : c.toNat ≤ 70 := toNat_le hupper.2
    refine .inl ⟨.inr (.inr hupper), c.toNat - 55, by omega, ?_⟩
    rw [if_neg hdecimal, if_neg hlower, if_pos hupper]
  · refine .inr ⟨?_, ?_⟩
    · rintro (h | h | h)
      · exact hdecimal h
      · exact hlower h
      · exact hupper h
    · rw [if_neg hdecimal, if_neg hlower, if_neg hupper]

theorem isDigit_of_value? {n : Nat} (h : value? c = some n) : IsDigit c ∧ n < 16 := by
  rcases value?_cases c with ⟨hdigit, n', hn, hvalue⟩ | ⟨-, hvalue⟩
  · rw [h] at hvalue
    cases hvalue
    exact ⟨hdigit, hn⟩
  · rw [h] at hvalue
    cases hvalue

private theorem exists_value?_of_isDigit (h : IsDigit c) : ∃ n < 16, value? c = some n := by
  rcases value?_cases c with ⟨-, hvalue⟩ | ⟨hdigit, -⟩
  · exact hvalue
  · exact absurd h hdigit

/-- A digit is ASCII. -/
theorem utf8Size_of_isDigit (h : IsDigit c) : c.utf8Size = 1 := by
  have hle : c.val ≤ 127 := by
    rcases h with h | h | h
    · exact UInt32.le_trans h.2 (by decide)
    · exact UInt32.le_trans h.2 (by decide)
    · exact UInt32.le_trans h.2 (by decide)
  exact Char.utf8Size_eq_one_iff.2 hle

/-- A text of digits has as many bytes as digits. -/
theorem utf8ByteSize_of_isDigit (h : ∀ c ∈ cs, IsDigit c) : (String.ofList cs).utf8ByteSize = cs.length := by
  rw [← Utf8.length_encode, Utf8.encode_ofList]
  induction cs with
  | nil => rfl
  | cons c cs ih =>
    obtain ⟨hc, hcs⟩ := List.forall_mem_cons.1 h
    rw [List.flatMap_cons, List.length_append, ih hcs, String.length_utf8EncodeChar, utf8Size_of_isDigit hc,
      List.length_cons, Nat.add_comm]

theorem Spells.length (h : Spells cs bs) : cs.length = 2 * bs.length := by
  induction h with
  | nil => rfl
  | cons _ _ _ ih =>
    rw [List.length_cons, List.length_cons, List.length_cons, ih]
    omega

theorem Spells.isDigit (h : Spells cs bs) : ∀ c ∈ cs, IsDigit c := by
  induction h with
  | nil => nofun
  | cons hhigh hlow _ ih =>
    rw [List.forall_mem_cons, List.forall_mem_cons]
    exact ⟨(isDigit_of_value? hhigh).1, (isDigit_of_value? hlow).1, ih⟩

private theorem halves {m n : Nat} (hm : m < 16) (hn : n < 16) :
    m = (UInt8.ofNat (m * 16 + n)).toNat / 16 ∧ n = (UInt8.ofNat (m * 16 + n)).toNat % 16 := by
  rw [UInt8.toNat_ofNat']
  omega

private theorem ofNat_halves (b : UInt8) : UInt8.ofNat (b.toNat / 16 * 16 + b.toNat % 16) = b := by
  rw [Nat.div_add_mod']
  exact UInt8.ofNat_toNat

/-- A text is read as the bytes that it spells. -/
theorem decode?_eq_some_iff : decode? cs = some bs ↔ Spells cs bs := by
  constructor
  · intro h
    induction cs using decode?.induct generalizing bs with
    | case1 =>
      cases h
      exact .nil
    | case2 c => cases h
    | case3 high low rest ih =>
      rw [decode?] at h
      obtain ⟨m, hm, h⟩ := Option.bind_eq_some_iff.1 h
      obtain ⟨n, hn, h⟩ := Option.bind_eq_some_iff.1 h
      obtain ⟨bs, hrest, h⟩ := Option.bind_eq_some_iff.1 h
      cases h
      obtain ⟨hhigh, hlow⟩ := halves (isDigit_of_value? hm).2 (isDigit_of_value? hn).2
      exact .cons (hhigh ▸ hm) (hlow ▸ hn) (ih hrest)
  · intro h
    induction h with
    | nil => rfl
    | cons hhigh hlow _ ih =>
      rw [decode?, hhigh, hlow, ih]
      exact congrArg (fun b => some (b :: _)) (ofNat_halves _)

theorem Spells.unique {bs' : Bytes} (h : Spells cs bs) (h' : Spells cs bs') : bs = bs' := by
  have hread := decode?_eq_some_iff.2 h
  rw [decode?_eq_some_iff.2 h'] at hread
  exact (Option.some.inj hread).symm

/-- Every text of an even number of digits spells bytes, and no other text does. -/
theorem exists_spells_iff : (∃ bs, Spells cs bs) ↔ cs.length % 2 = 0 ∧ ∀ c ∈ cs, IsDigit c := by
  constructor
  · rintro ⟨bs, h⟩
    exact ⟨by rw [h.length]; omega, h.isDigit⟩
  · rintro ⟨heven, hdigits⟩
    induction cs using decode?.induct with
    | case1 => exact ⟨[], .nil⟩
    | case2 c => cases heven
    | case3 high low rest ih =>
      rw [List.forall_mem_cons, List.forall_mem_cons] at hdigits
      obtain ⟨hhigh, hlow, hrest⟩ := hdigits
      rw [List.length_cons, List.length_cons] at heven
      obtain ⟨bs, hbs⟩ := ih (by omega) hrest
      obtain ⟨m, hm, hvalue⟩ := exists_value?_of_isDigit hhigh
      obtain ⟨n, hn, hvalue'⟩ := exists_value?_of_isDigit hlow
      obtain ⟨hhigh, hlow⟩ := halves hm hn
      exact ⟨_, .cons (hvalue.trans (congrArg some hhigh)) (hvalue'.trans (congrArg some hlow)) hbs⟩

end Hex

namespace Address

variable {s : String} {a : Address}

private theorem ofBytes?_eq_some_iff {bs : Bytes} : ofBytes? bs = some a ↔ bs = a.bytes := by
  unfold ofBytes?
  constructor
  · intro h
    split at h
    · cases h
      rfl
    · cases h
  · rintro rfl
    rw [dif_pos a.length_bytes]

/-- An account is read from a text exactly if the text less its mark spells the bytes of the account. -/
theorem parse_eq_ok_iff : parse s = .ok a ↔ Hex.Spells (unmarked s.toList) a.bytes := by
  have hread : (Hex.decode? (unmarked s.toList)).bind ofBytes? = some a ↔ Hex.Spells (unmarked s.toList) a.bytes := by
    rw [← Hex.decode?_eq_some_iff, Option.bind_eq_some_iff]
    constructor
    · rintro ⟨bs, hbs, hbytes⟩
      rw [hbs, ofBytes?_eq_some_iff.1 hbytes]
    · exact fun h => ⟨a.bytes, h, ofBytes?_eq_some_iff.2 rfl⟩
  unfold parse
  constructor
  · intro h
    dsimp only at h
    split at h
    · cases h
    · split at h
      · next hbytes =>
        cases h
        exact hread.1 hbytes
      · cases h
  · intro h
    have hsize : (String.ofList (unmarked s.toList)).utf8ByteSize = 40 := by
      rw [Hex.utf8ByteSize_of_isDigit h.isDigit, h.length, a.length_bytes]
    simp only [hsize, hread.2 h, ne_eq, not_true_eq_false, ↓reduceIte]

/-- A text of the right size from which no account is read has a character that is no digit. -/
theorem parse_cases_of_size (hsize : (String.ofList (unmarked s.toList)).utf8ByteSize = 40) :
    (∃ a, parse s = .ok a) ∨ parse s = .error .digit ∧ ∃ c ∈ unmarked s.toList, ¬ Hex.IsDigit c := by
  by_cases hdigits : ∀ c ∈ unmarked s.toList, Hex.IsDigit c
  · have hlength : (unmarked s.toList).length = 40 := by
      rw [← Hex.utf8ByteSize_of_isDigit hdigits, hsize]
    obtain ⟨bs, hbs⟩ := Hex.exists_spells_iff.2 ⟨by rw [hlength], hdigits⟩
    have hbytes : bs.length = 20 := by
      have hdouble := hbs.length
      omega
    exact .inl ⟨⟨bs, hbytes⟩, parse_eq_ok_iff.2 hbs⟩
  · have hnone : Hex.decode? (unmarked s.toList) = none := by
      cases hread : Hex.decode? (unmarked s.toList) with
      | none => rfl
      | some bs => exact absurd (Hex.decode?_eq_some_iff.1 hread).isDigit hdigits
    refine .inr ⟨?_, ?_⟩
    · simp only [parse, hsize, hnone, ne_eq, not_true_eq_false, ↓reduceIte, Option.bind_none]
    · simpa using hdigits

end Address

end SecretsGateway
