import SecretsGateway.Base64

/-!
# Reading base64 back

Three bytes make four symbols below sixty-four, and the symbols give the bytes back; a shorter last group is filled up with
zero bits and padding (`Base64.decode_encode`). All symbols are ASCII.
-/

namespace SecretsGateway.Base64

private theorem symbol_table : ∀ n < 64, value? (symbol n) = some n ∧ symbol n ≠ padding ∧ symbol n < 128 := by decide

variable {offset w x y z : Nat}

private theorem value?_symbol (h : w < 64) : value? (symbol w) = some w := (symbol_table w h).1

private theorem symbol_ne_padding (h : w < 64) : symbol w ≠ padding := (symbol_table w h).2.1

private theorem symbol_lt (n : Nat) : symbol n < 128 := by
  by_cases h : n < 64
  · exact (symbol_table n h).2.2
  · have hlast : symbol n = 47 := by
      rw [symbol, if_neg (by omega), if_neg (by omega), if_neg (by omega), if_neg (by omega)]
    rw [hlast]
    decide

private theorem symbolAt_symbol (h : w < 64) : symbolAt offset (symbol w) = .ok w := by
  rw [symbolAt, value?_symbol h]

private theorem lastGroup_symbol (index : Nat) (rest : Bytes) (h : w < 64) :
    lastGroup offset index none (symbol w :: rest) = (lastGroup offset (index + 1) none rest).map (w :: ·) := by
  simp only [lastGroup, symbol_ne_padding h, value?_symbol h, ↓reduceIte]

private theorem lastGroup_padding {index : Nat} (hindex : 2 ≤ index) (padded : Option Nat) (rest : Bytes) :
    lastGroup offset index padded (padding :: rest) = lastGroup offset (index + 1) (some (padded.getD index)) rest := by
  simp only [lastGroup, Nat.not_lt.2 hindex, ↓reduceIte]

private theorem decodeLast_one (hw : w < 64) (hx : x < 64) (hbits : x % 16 = 0) :
    decodeLast offset [symbol w, symbol x, padding, padding] = .ok [UInt8.ofNat (w * 4 + x / 16)] := by
  have hgroup : lastGroup offset 0 none [symbol w, symbol x, padding, padding] = .ok [w, x] := by
    rw [lastGroup_symbol 0 _ hw, lastGroup_symbol 1 _ hx, lastGroup_padding (Nat.le_refl 2), lastGroup_padding (by decide)]
    rfl
  simp only [decodeLast, hgroup, hbits, ne_eq, not_true_eq_false, ↓reduceIte]

private theorem decodeLast_two (hw : w < 64) (hx : x < 64) (hy : y < 64) (hbits : y % 4 = 0) :
    decodeLast offset [symbol w, symbol x, symbol y, padding] =
      .ok [UInt8.ofNat (w * 4 + x / 16), UInt8.ofNat (x * 16 + y / 4)] := by
  have hgroup : lastGroup offset 0 none [symbol w, symbol x, symbol y, padding] = .ok [w, x, y] := by
    rw [lastGroup_symbol 0 _ hw, lastGroup_symbol 1 _ hx, lastGroup_symbol 2 _ hy, lastGroup_padding (by decide)]
    rfl
  simp only [decodeLast, hgroup, hbits, ne_eq, not_true_eq_false, ↓reduceIte]

private theorem decodeGroups_full (hw : w < 64) (hx : x < 64) (hy : y < 64) (hz : z < 64) {rest decoded : Bytes}
    (hrest : decodeGroups (offset + 4) rest = .ok decoded) :
    decodeGroups offset (symbol w :: symbol x :: symbol y :: symbol z :: rest) =
      .ok (UInt8.ofNat (w * 4 + x / 16) :: UInt8.ofNat (x * 16 + y / 4) :: UInt8.ofNat (y * 64 + z) :: decoded) := by
  cases rest with
  | nil =>
    have hgroup : lastGroup offset 0 none [symbol w, symbol x, symbol y, symbol z] = .ok [w, x, y, z] := by
      rw [lastGroup_symbol 0 _ hw, lastGroup_symbol 1 _ hx, lastGroup_symbol 2 _ hy, lastGroup_symbol 3 _ hz]
      rfl
    cases hrest
    simp only [decodeGroups, decodeLast, hgroup]
  | cons e rest =>
    simp only [decodeGroups, symbolAt_symbol hw, symbolAt_symbol hx, symbolAt_symbol hy, symbolAt_symbol hz, hrest]
    rfl

private theorem ofNat_eq {n : Nat} {b : UInt8} (h : n % 256 = b.toNat) : UInt8.ofNat n = b := by
  apply UInt8.toNat.inj
  rw [UInt8.toNat_ofNat']
  exact h

private theorem decodeGroups_encode (offset : Nat) (bs : Bytes) : decodeGroups offset (encode bs) = .ok bs := by
  induction bs using encode.induct generalizing offset with
  | case1 a b c rest ih =>
    have ha := a.toNat_lt
    have hb := b.toNat_lt
    have hc := c.toNat_lt
    simp only [encode]
    generalize hn : a.toNat * 65536 + b.toNat * 256 + c.toNat = n
    rw [decodeGroups_full (by omega) (by omega) (by omega) (by omega) (ih _)]
    rw [ofNat_eq (show _ = a.toNat by omega), ofNat_eq (show _ = b.toNat by omega), ofNat_eq (show _ = c.toNat by omega)]
  | case2 a b =>
    have ha := a.toNat_lt
    have hb := b.toNat_lt
    simp only [encode, decodeGroups]
    generalize hn : a.toNat * 256 + b.toNat = n
    rw [decodeLast_two (by omega) (by omega) (by omega) (by omega)]
    rw [ofNat_eq (show _ = a.toNat by omega), ofNat_eq (show _ = b.toNat by omega)]
  | case3 a =>
    have ha := a.toNat_lt
    simp only [encode, decodeGroups]
    rw [decodeLast_one (by omega) (by omega) (by omega), ofNat_eq (show _ = a.toNat by omega)]
  | case4 => rfl

private theorem length_encode_mod (bs : Bytes) : (encode bs).length % 4 = 0 := by
  induction bs using encode.induct with
  | case1 a b c rest ih =>
    simp only [encode, List.length_cons]
    omega
  | case2 a b => simp [encode]
  | case3 a => simp [encode]
  | case4 => rfl

/-- Bytes are read back from their base64 form. -/
theorem decode_encode (bs : Bytes) : decode (encode bs) = .ok bs := by
  have hlength := length_encode_mod bs
  rw [decode, if_neg (by omega), decodeGroups_encode]

/-- The base64 form is ASCII. -/
theorem forall_encode_lt (bs : Bytes) : ∀ b ∈ encode bs, b < 128 := by
  have hpadding : padding < 128 := by decide
  induction bs using encode.induct with
  | case1 a b c rest ih =>
    simp only [encode, List.forall_mem_cons]
    exact ⟨symbol_lt _, symbol_lt _, symbol_lt _, symbol_lt _, ih⟩
  | case2 a b =>
    simp only [encode, List.forall_mem_cons]
    exact ⟨symbol_lt _, symbol_lt _, symbol_lt _, hpadding, nofun⟩
  | case3 a =>
    simp only [encode, List.forall_mem_cons]
    exact ⟨symbol_lt _, symbol_lt _, hpadding, hpadding, nofun⟩
  | case4 => nofun

end SecretsGateway.Base64
