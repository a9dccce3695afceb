import SecretsGateway.Json.Record
import SecretsGateway.Json.Value

/-!
# Reading back what was written

`Reads read v a` says that `read` gives `a` wherever the written form of `v` stands before a delimiter. Texts, truth values
and integers are read back; the readers of lists and records pass it on from their parts.

A text is read byte by byte, and each byte is read back from its escape (`scanText_escape`), whatever bytes there are: that
they are those of a text matters only at the end.
-/

namespace SecretsGateway.Json

/-- The next byte, if there is one, cannot belong to a value before it. -/
def Delimited (rest : Bytes) : Prop := ∀ b ∈ rest.head?, b = comma ∨ b = closeList ∨ b = closeObject

theorem delimited_nil : Delimited [] := by
  intro b hb
  cases hb

theorem delimited_comma (rest : Bytes) : Delimited (comma :: rest) := by
  intro b hb
  cases hb
  exact .inl rfl

theorem delimited_closeList (rest : Bytes) : Delimited (closeList :: rest) := by
  intro b hb
  cases hb
  exact .inr (.inl rfl)

theorem delimited_closeObject (rest : Bytes) : Delimited (closeObject :: rest) := by
  intro b hb
  cases hb
  exact .inr (.inr rfl)

/-- The reader gives `a` for a written value, wherever that stands before a delimiter. -/
def Reads {α : Type} (read : Bytes → Result α) (v : Value) (a : α) : Prop :=
  ∀ rest, Delimited rest → read (v.write ++ rest) = .ok (a, rest)

/-- A document that holds nothing but a written value is read. -/
theorem Reads.decode {α : Type} {read : Bytes → Result α} {v : Value} {a : α} (h : Reads read v a) :
    Json.decode read v.write = .ok a := by
  have hread := h [] delimited_nil
  rw [List.append_nil] at hread
  simp only [Json.decode, hread]
  rfl

theorem skipBlank_cons {b : UInt8} (h : isBlank b = false) (rest : Bytes) : skipBlank (b :: rest) = b :: rest := by
  simp [skipBlank, h]

private theorem scanText_unicode {d₁ d₂ d₃ d₄ : UInt8} {n : Nat} (done rest : Bytes)
    (hnumber : hexNumber? [d₁, d₂, d₃, d₄] = some n) (htrailing : isTrailing n = false) (hleading : isLeading n = false) :
    scanText .plain done ([92, 117, d₁, d₂, d₃, d₄] ++ rest) =
      scanText .plain ((String.utf8EncodeChar (Char.ofNat n)).reverse ++ done) rest := by
  change scanText (.hex none []) done (d₁ :: d₂ :: d₃ :: d₄ :: rest) = _
  simp [scanText, hnumber, htrailing, hleading]

theorem hexNumber?_control : ∀ n < 32,
    hexNumber? [48, 48, UInt8.ofNat (48 + n / 16), UInt8.ofNat (if n % 16 < 10 then 48 + n % 16 else 87 + n % 16)] = some n ∧
      String.utf8EncodeChar (Char.ofNat n) = [UInt8.ofNat n] ∧ isTrailing n = false ∧ isLeading n = false := by
  decide

/-- A byte of a text is read back from the way it is written. -/
theorem scanText_escape (b : UInt8) (done rest : Bytes) :
    scanText .plain done (escape b ++ rest) = scanText .plain (b :: done) rest := by
  -- seven bytes have a letter, the other control bytes have a number, and all others stand for themselves
  unfold escape
  split
  · subst b
    rfl
  split
  · subst b
    rfl
  split
  · subst b
    rfl
  split
  · subst b
    rfl
  split
  · subst b
    rfl
  split
  · subst b
    rfl
  split
  · subst b
    rfl
  split
  · next hb =>
    obtain ⟨hnumber, hchar, htrailing, hleading⟩ := hexNumber?_control b.toNat (UInt8.lt_iff_toNat_lt.1 hb)
    rw [UInt8.ofNat_toNat] at hchar
    rw [scanText_unicode done rest hnumber htrailing hleading, hchar]
    rfl
  · next hquote hbackslash _ _ _ _ _ hb => simp [scanText, hquote, hbackslash, hb]

private theorem scanText_escapes (bs done rest : Bytes) :
    scanText .plain done (bs.flatMap escape ++ quote :: rest) = .ok (done.reverse ++ bs, rest) := by
  induction bs generalizing done with
  | nil => simp [scanText]
  | cons b bs ih =>
    rw [List.flatMap_cons, List.append_assoc, scanText_escape, ih, List.reverse_cons, List.append_assoc]
    rfl

theorem text_writeText (s : String) (rest : Bytes) :
    text ((Utf8.encode s).flatMap escape ++ quote :: rest) = .ok (s, rest) := by
  rw [text, scanText_escapes, Result.andThen_ok, List.reverse_nil, List.nil_append, Utf8.decode?_encode]

theorem writeText_append (s : String) (rest : Bytes) :
    writeText s ++ rest = quote :: ((Utf8.encode s).flatMap escape ++ quote :: rest) := by
  simp [writeText]

theorem reads_string (wanted : String) (s : String) : Reads (string wanted) (.text s) s := by
  intro rest _
  rw [Value.write, writeText_append, string, skipBlank_cons rfl]
  exact text_writeText s rest

theorem reads_bool (b : Bool) : Reads bool (.bool b) b := by
  intro rest _
  cases b <;> rfl

private theorem not_isDigit_of_delimited {b : UInt8} {rest : Bytes} (h : Delimited (b :: rest)) :
    Decimal.isDigit b = false := by
  rcases h b rfl with rfl | rfl | rfl <;> decide

theorem not_isBlank_of_isDigit {b : UInt8} (h : Decimal.isDigit b = true) : isBlank b = false := by
  cases hblank : isBlank b with
  | false => rfl
  | true =>
    simp only [isBlank, Bool.or_eq_true, decide_eq_true_eq] at hblank
    rcases hblank with ((rfl | rfl) | rfl) | rfl <;> exact absurd h (by decide)

theorem ne_of_isDigit {b c : UInt8} (hb : Decimal.isDigit b = true) (hc : Decimal.isDigit c = false) : b ≠ c := by
  rintro rfl
  rw [hb] at hc
  cases hc

private theorem takeWhile_digits (n : Nat) {rest : Bytes} (h : Delimited rest) :
    (Decimal.digits n ++ rest).takeWhile Decimal.isDigit = Decimal.digits n := by
  rw [List.takeWhile_append_of_pos (List.all_eq_true.1 (Decimal.all_isDigit_digits n))]
  cases rest with
  | nil => simp
  | cons b rest => simp [not_isDigit_of_delimited h]

private theorem dropWhile_digits (n : Nat) {rest : Bytes} (h : Delimited rest) :
    (Decimal.digits n ++ rest).dropWhile Decimal.isDigit = rest := by
  rw [List.dropWhile_append_of_pos (List.all_eq_true.1 (Decimal.all_isDigit_digits n))]
  cases rest with
  | nil => rfl
  | cons b rest => simp [not_isDigit_of_delimited h]

private theorem le_value (n : Nat) (ds : Bytes) : n ≤ Decimal.value n ds := by
  induction ds generalizing n with
  | nil => exact Nat.le_refl n
  | cons d ds ih =>
    have hrest := ih (n * 10 + Decimal.digitValue d)
    simp only [Decimal.value, List.foldl_cons] at hrest ⊢
    omega

/-- Digits are all absorbed as long as the number that they spell fits. -/
private theorem absorb_eq (n count : Nat) (ds : Bytes) (h : Decimal.value n ds < UInt64.size) :
    absorb n count ds = (Decimal.value n ds, count + ds.length) := by
  induction ds generalizing n count with
  | nil => rfl
  | cons d ds ih =>
    have hnext : n * 10 + Decimal.digitValue d < UInt64.size := Nat.lt_of_le_of_lt (le_value _ ds) h
    rw [absorb, if_pos hnext, ih _ _ h, List.length_cons, Nat.add_right_comm, Nat.add_assoc]
    rfl

/-- A number has a first digit, which is no zero if the number is none. -/
theorem digits_eq_cons (n : Nat) :
    ∃ b ds, Decimal.digits n = b :: ds ∧ Decimal.isDigit b = true ∧ (0 < n → b ≠ zero) := by
  induction n using Decimal.digits.induct with
  | case1 n hlt =>
    refine ⟨Decimal.digit n, [], ?_, Decimal.isDigit_digit hlt, ?_⟩
    · rw [Decimal.digits, if_pos hlt]
    · intro hpos hzero
      have hvalue := congrArg Decimal.digitValue hzero
      rw [Decimal.digitValue_digit hlt, show Decimal.digitValue zero = 0 from rfl] at hvalue
      omega
  | case2 n hle ih =>
    obtain ⟨b, ds, hds, hdigit, hzero⟩ := ih
    refine ⟨b, ds ++ [Decimal.digit (n % 10)], ?_, hdigit, fun _ => hzero (by omega)⟩
    rw [Decimal.digits, if_neg hle, hds]
    rfl

private theorem number_zero (negative : Bool) (rest : Bytes) :
    number negative (zero :: rest) =
      if (rest.head?.map Decimal.isDigit).getD false then failNext .badNumber rest
      else afterInteger negative 0 0 rest := rfl

private theorem afterInteger_eq {negative : Bool} {n : Nat} {x : Number} (hx : whole negative n = some x) {rest : Bytes}
    (h : Delimited rest) : afterInteger negative n 0 rest = .ok (x, rest) := by
  unfold afterInteger
  split
  · rcases h _ rfl with hb | hb | hb <;> cases hb
  · next b rest _ =>
    have hmark : isExponentMark b = false := by rcases h b rfl with rfl | rfl | rfl <;> rfl
    simp [hmark, hx]
  · simp [hx]

theorem digits_zero : Decimal.digits 0 = [zero] := by
  rw [Decimal.digits]
  rfl

private theorem number_digits {negative : Bool} {n : Nat} {x : Number} (hx : whole negative n = some x)
    (hn : n < UInt64.size) {rest : Bytes} (h : Delimited rest) :
    number negative (Decimal.digits n ++ rest) = .ok (x, rest) := by
  rcases Nat.eq_zero_or_pos n with rfl | hpos
  · have hhead : (rest.head?.map Decimal.isDigit).getD false = false := by
      cases rest with
      | nil => rfl
      | cons b rest => exact not_isDigit_of_delimited h
    rw [digits_zero, List.singleton_append, number_zero, hhead, if_neg Bool.false_ne_true]
    exact afterInteger_eq hx h
  · obtain ⟨b, ds, hds, hdigit, hzero⟩ := digits_eq_cons n
    have htake := takeWhile_digits n h
    have hdrop := dropWhile_digits n h
    have habsorb := absorb_eq 0 0 (Decimal.digits n) (by rwa [Decimal.value_digits])
    rw [Decimal.value_digits, Nat.zero_add] at habsorb
    unfold number
    split
    · next heq => simp [hds] at heq
    · next heq => simp [hds, hzero hpos] at heq
    · next b' rest' _ heq =>
      simp only [htake, hdrop, habsorb, Nat.sub_self]
      rw [hds, List.cons_append, List.cons.injEq] at heq
      rw [← heq.1, hdigit]
      exact afterInteger_eq hx h

/-- Integers of 64 bits, with or without a sign, are read back. -/
private theorem reads_integer {α : Type} {wanted : String} {accept : Int → Option α} {i : Int} {a : α}
    (hlow : -9223372036854775808 ≤ i) (hhigh : i < 18446744073709551616) (ha : accept i = some a) :
    Reads (integer wanted accept) (.int i) a := by
  intro rest hrest
  have hsize : i.natAbs < UInt64.size := by
    show i.natAbs < 18446744073709551616
    omega
  rw [Value.write]
  by_cases hneg : i < 0
  · have hwhole : whole true i.natAbs = some (.int i) := by
      rw [whole, if_neg (by simp), if_neg (by omega)]
      congr
      omega
    rw [Decimal.ofInt, if_pos hneg, List.cons_append]
    simp only [integer, skipBlank_cons (show isBlank 45 = false from rfl), ↓reduceIte]
    rw [number_digits hwhole hsize hrest, Result.andThen_ok]
    simp only [ha]
  · have hwhole : whole false i.natAbs = some (.int i) := by
      rw [whole, if_pos (by rfl)]
      congr
      omega
    have hread := number_digits hwhole hsize hrest
    obtain ⟨b, ds, hds, hdigit, -⟩ := digits_eq_cons i.natAbs
    have hblank := not_isBlank_of_isDigit hdigit
    have hminus : b ≠ minus := ne_of_isDigit hdigit rfl
    rw [Decimal.ofInt, if_neg hneg]
    rw [hds, List.cons_append] at hread ⊢
    simp only [integer, skipBlank_cons hblank, hminus, hdigit, ↓reduceIte, hread, Result.andThen_ok, ha]

theorem reads_unsigned (wanted : String) (n : UInt64) : Reads (unsigned wanted) (.int n.toNat) n := by
  have hn := n.toNat_lt
  refine reads_integer (by omega) (by omega) ?_
  rw [if_pos ⟨by omega, by show (n.toNat : Int) < 18446744073709551616; omega⟩]
  simp

theorem reads_signed (i : Int64) : Reads signed (.int i.toInt) i := by
  have hlow := i.le_toInt
  have hhigh := i.toInt_lt
  refine reads_integer (by omega) (by omega) ?_
  rw [if_pos ⟨i.minValue_le_toInt, i.toInt_le⟩, Int64.ofInt_toInt]

end SecretsGateway.Json
