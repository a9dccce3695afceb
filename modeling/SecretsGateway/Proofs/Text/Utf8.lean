import SecretsGateway.Hex
import SecretsGateway.Text.Utf8

/-!
# Bytes of texts

The bytes of a text are those of its characters one after the other, and texts can be joined and cut at the byte of an
ASCII character. `Utf8.IsText` says that bytes are valid UTF-8, and holds of every string of ASCII bytes.
-/

namespace SecretsGateway

namespace Utf8

theorem encode_ofList (cs : List Char) : encode (String.ofList cs) = cs.flatMap String.utf8EncodeChar := by
  rw [encode, String.toByteArray_ofList, List.utf8Encode]
  simp

private theorem encode_append (s t : String) : encode (s ++ t) = encode s ++ encode t := by
  simp [encode]

/-- The bytes are valid UTF-8. -/
def IsText (bs : Bytes) : Prop := ∃ s, encode s = bs

theorem IsText.append {bs cs : Bytes} (hb : IsText bs) (hc : IsText cs) : IsText (bs ++ cs) := by
  obtain ⟨s, rfl⟩ := hb
  obtain ⟨t, rfl⟩ := hc
  exact ⟨s ++ t, encode_append s t⟩

theorem IsText.isSome_decode? {bs : Bytes} (h : IsText bs) : (decode? bs).isSome = true := by
  obtain ⟨s, rfl⟩ := h
  simp

private theorem encodeChar_of_lt : ∀ n < 128, String.utf8EncodeChar (Char.ofNat n) = [UInt8.ofNat n] := by decide

/-- ASCII bytes are the bytes of the text of their characters. -/
theorem encode_ofList_ascii {bs : Bytes} (h : ∀ b ∈ bs, b < 128) :
    encode (String.ofList (bs.map fun b => Char.ofNat b.toNat)) = bs := by
  rw [encode_ofList]
  induction bs with
  | nil => rfl
  | cons b bs ih =>
    obtain ⟨hb, hbs⟩ := List.forall_mem_cons.1 h
    rw [List.map_cons, List.flatMap_cons, ih hbs, encodeChar_of_lt b.toNat (UInt8.lt_iff_toNat_lt.1 hb), UInt8.ofNat_toNat,
      List.singleton_append]

/-- ASCII bytes are valid UTF-8. -/
theorem isText_of_ascii {bs : Bytes} (h : ∀ b ∈ bs, b < 128) : IsText bs := ⟨_, encode_ofList_ascii h⟩

theorem isText_singleton {b : UInt8} (h : b < 128) : IsText [b] :=
  isText_of_ascii (List.forall_mem_singleton.2 h)

theorem isText_of_all {bs : Bytes} (h : bs.all (fun b => b < 128) = true) : IsText bs := by
  apply isText_of_ascii
  intro b hb
  exact of_decide_eq_true (List.all_eq_true.1 h b hb)

private theorem le_ofNat {n : Nat} (h : 128 ≤ n % 256) : 128 ≤ UInt8.ofNat n := by
  rw [UInt8.le_iff_toNat_le, UInt8.toNat_ofNat']
  exact h

/-- A character is a single ASCII byte, or it has no ASCII byte at all. -/
theorem encodeChar_cases (c : Char) :
    (∃ b : UInt8, b < 128 ∧ String.utf8EncodeChar c = [b]) ∨ ∀ b ∈ String.utf8EncodeChar c, 128 ≤ b := by
  fun_cases String.utf8EncodeChar c with
  | case1 v h =>
    refine .inl ⟨_, ?_, rfl⟩
    rw [UInt8.lt_iff_toNat_lt, UInt8.toNat_ofNat']
    show v % 256 < 128
    omega
  | case2 v =>
    right
    simp only [List.mem_cons, List.not_mem_nil, or_false, forall_eq_or_imp, forall_eq]
    refine ⟨le_ofNat ?_, le_ofNat ?_⟩ <;> omega
  | case3 v =>
    right
    simp only [List.mem_cons, List.not_mem_nil, or_false, forall_eq_or_imp, forall_eq]
    refine ⟨le_ofNat ?_, le_ofNat ?_, le_ofNat ?_⟩ <;> omega
  | case4 v =>
    right
    simp only [List.mem_cons, List.not_mem_nil, or_false, forall_eq_or_imp, forall_eq]
    refine ⟨le_ofNat ?_, le_ofNat ?_, le_ofNat ?_, le_ofNat ?_⟩ <;> omega

end Utf8

private theorem Hex.utf8Size_digit {n : Nat} (h : n < 16) : (Hex.digit n).utf8Size = 1 := by
  rcases n with _ | _ | _ | _ | _ | _ | _ | _ | _ | _ | _ | _ | _ | _ | _ | _ | n
  all_goals first | decide | omega

/-- A marked text has two bytes for the mark and two for each byte that it spells. -/
theorem Hex.utf8ByteSize_marked (bs : Bytes) : (Hex.marked bs).utf8ByteSize = 2 + 2 * bs.length := by
  have hdigits : ((Hex.encode bs).flatMap String.utf8EncodeChar).length = 2 * bs.length := by
    induction bs with
    | nil => rfl
    | cons b bs ih =>
      have hb := b.toNat_lt
      have hhigh := Hex.utf8Size_digit (show b.toNat / 16 < 16 by omega)
      have hlow := Hex.utf8Size_digit (Nat.mod_lt b.toNat (show 0 < 16 by decide))
      simp only [Hex.encode, List.flatMap_cons, List.flatMap_append, List.flatMap_nil, List.append_nil, List.length_append,
        String.length_utf8EncodeChar, hhigh, hlow, List.length_cons] at ih ⊢
      omega
  rw [← Utf8.length_encode, Hex.marked, Utf8.encode_ofList, List.flatMap_cons, List.flatMap_cons, List.length_append,
    List.length_append, hdigits]
  exact (Nat.add_assoc 1 1 _).symm

end SecretsGateway
