import SecretsGateway.Proofs.Signing

/-!
# How a signature is judged

Before the curve is asked, a signature is looked at by its bytes alone: the length, the recovery id, the ranges of `r` and `s`,
and the height of `s`, in this order (`Signature.fault?`). Whoever recovers a signer is told the first fault, and the curve is
asked if there is none (`recover_eq_recoverDigest`). The order of the curve is odd, so of a value of `s` and its negative one
is low and the other one high; hence no two signatures that differ by the sign of `s` are both heard (`recover_judges`).
-/

namespace SecretsGateway

open Secp256k1

namespace Signature

/-- The bytes that may stand at the end of a signature. -/
def recoveryIds : List UInt8 := [0, 1, 27, 28]

/-- The parts that sixty-five bytes spell. -/
def ofBytes (bs : Bytes) : Signature := ⟨Bytes.toNat (bs.take 32), Bytes.toNat ((bs.drop 32).take 32), bs.getD 64 0⟩

/-- Both numbers are positive and below the order. -/
def InRange (sig : Signature) : Prop := (0 < sig.r ∧ sig.r < order) ∧ 0 < sig.s ∧ sig.s < order

instance (sig : Signature) : Decidable sig.InRange := inferInstanceAs (Decidable (_ ∧ _))

/-- The first fault that the bytes of a signature show. -/
def fault? (bs : Bytes) : Option SignatureError :=
  let sig := ofBytes bs
  if bs.length ≠ 65 then some (.length bs.length)
  else if sig.v ∉ recoveryIds then some (.recoveryId sig.v)
  else if ¬ sig.InRange then some .format
  else if order / 2 < sig.s then some .highS
  else none

variable {bs : Bytes} {sig : Signature} {v : UInt8}

private theorem fault?_of_length (h : bs.length ≠ 65) : fault? bs = some (.length bs.length) := if_pos h

private theorem fault?_of_recoveryId (h : bs.length = 65) (hid : (ofBytes bs).v ∉ recoveryIds) :
    fault? bs = some (.recoveryId (ofBytes bs).v) := by
  rw [fault?, if_neg (not_not_intro h), if_pos hid]

private theorem fault?_of_range (h : bs.length = 65) (hid : (ofBytes bs).v ∈ recoveryIds) :
    fault? bs = if ¬ (ofBytes bs).InRange then some .format else if order / 2 < (ofBytes bs).s then some .highS else none := by
  rw [fault?, if_neg (not_not_intro h), if_neg (not_not_intro hid)]

private theorem fault?_cases (bs : Bytes) :
    (bs.length ≠ 65 ∧ fault? bs = some (.length bs.length)) ∨
    (bs.length = 65 ∧ (ofBytes bs).v ∉ recoveryIds ∧ fault? bs = some (.recoveryId (ofBytes bs).v)) ∨
    (bs.length = 65 ∧ (ofBytes bs).v ∈ recoveryIds ∧ ¬ (ofBytes bs).InRange ∧ fault? bs = some .format) ∨
    (bs.length = 65 ∧ (ofBytes bs).v ∈ recoveryIds ∧ (ofBytes bs).InRange ∧ order < 2 * (ofBytes bs).s ∧
      fault? bs = some .highS) ∨
    (bs.length = 65 ∧ (ofBytes bs).v ∈ recoveryIds ∧ (ofBytes bs).InRange ∧ 2 * (ofBytes bs).s ≤ order ∧
      fault? bs = none) := by
  have horder := order_odd
  by_cases hlength : bs.length = 65
  · by_cases hid : (ofBytes bs).v ∈ recoveryIds
    · have hfault := fault?_of_range hlength hid
      by_cases hrange : (ofBytes bs).InRange
      · rw [if_neg (not_not_intro hrange)] at hfault
        by_cases hhigh : order / 2 < (ofBytes bs).s
        · rw [if_pos hhigh] at hfault
          exact .inr (.inr (.inr (.inl ⟨hlength, hid, hrange, by omega, hfault⟩)))
        · rw [if_neg hhigh] at hfault
          exact .inr (.inr (.inr (.inr ⟨hlength, hid, hrange, by omega, hfault⟩)))
      · rw [if_pos hrange] at hfault
        exact .inr (.inr (.inl ⟨hlength, hid, hrange, hfault⟩))
    · exact .inr (.inl ⟨hlength, hid, fault?_of_recoveryId hlength hid⟩)
  · exact .inl ⟨hlength, fault?_of_length hlength⟩

/-- When the bytes of a signature show which fault, and when they show none. -/
theorem fault?_iff (bs : Bytes) :
    (∀ n, fault? bs = some (.length n) ↔ bs.length ≠ 65 ∧ n = bs.length) ∧
    (∀ v, fault? bs = some (.recoveryId v) ↔ bs.length = 65 ∧ (ofBytes bs).v ∉ recoveryIds ∧ v = (ofBytes bs).v) ∧
    (fault? bs = some .format ↔ bs.length = 65 ∧ (ofBytes bs).v ∈ recoveryIds ∧ ¬ (ofBytes bs).InRange) ∧
    (fault? bs = some .highS ↔ bs.length = 65 ∧ (ofBytes bs).v ∈ recoveryIds ∧ (ofBytes bs).InRange ∧
      order < 2 * (ofBytes bs).s) ∧
    (fault? bs = none ↔ bs.length = 65 ∧ (ofBytes bs).v ∈ recoveryIds ∧ (ofBytes bs).InRange ∧
      2 * (ofBytes bs).s ≤ order) := by
  rcases fault?_cases bs with ⟨hlength, h⟩ | ⟨hlength, hid, h⟩ | ⟨hlength, hid, hrange, h⟩ |
    ⟨hlength, hid, hrange, hhigh, h⟩ | ⟨hlength, hid, hrange, hlow, h⟩
  · simp [h, hlength, eq_comm]
  · simp [h, hlength, hid, eq_comm]
  · simp [h, hlength, hid, hrange]
  · simp [h, hlength, hid, hrange, hhigh]
  · simp [h, hlength, hid, hrange, hlow]

private theorem fault?_ne_recovery (bs : Bytes) : fault? bs ≠ some .recovery := by
  intro hfault
  rcases fault?_cases bs with ⟨-, h⟩ | ⟨-, -, h⟩ | ⟨-, -, -, h⟩ | ⟨-, -, -, -, h⟩ | ⟨-, -, -, -, h⟩
  all_goals
    rw [hfault] at h
    cases h

private theorem parity?_cases (v : UInt8) :
    (v ∉ recoveryIds ∧ parity? v = none) ∨ (v ∈ recoveryIds ∧ ∃ odd, parity? v = some odd) := by
  unfold parity? recoveryIds
  split
  · next h => rcases h with rfl | rfl <;> exact .inr ⟨by decide, _, rfl⟩
  · next heven =>
    split
    · next h => rcases h with rfl | rfl <;> exact .inr ⟨by decide, _, rfl⟩
    · next hodd =>
      rw [not_or] at heven hodd
      exact .inl ⟨by simp [heven, hodd], rfl⟩

end Signature

open Signature

variable {bs message : Bytes} {sig : Signature}

/-- The account whose key signed a digest. -/
def recoverDigest (bs digest : Bytes) : Except SignatureError Address :=
  match fault? bs with
  | some e => .error e
  | none =>
    match recoverPoint (ofBytes bs).r (ofBytes bs).s ((parity? (ofBytes bs).v).getD false) digest with
    | some key => .ok key.address
    | none => .error .recovery

/-- A message matters only by its digest, and only if the bytes of the signature show no fault. -/
theorem recover_eq_recoverDigest (bs message : Bytes) : recover bs message = recoverDigest bs (Keccak.digest message) := by
  have hrange : ¬ (ofBytes bs).InRange ↔ Bytes.toNat (bs.take 32) = 0 ∨ order ≤ Bytes.toNat (bs.take 32) ∨
      Bytes.toNat ((bs.drop 32).take 32) = 0 ∨ order ≤ Bytes.toNat ((bs.drop 32).take 32) := by
    rw [InRange, ofBytes]
    dsimp only
    omega
  unfold recover recoverDigest
  by_cases hlength : bs.length = 65
  · rw [if_neg (not_not_intro hlength)]
    rcases parity?_cases (bs.getD 64 0) with ⟨hid, hparity⟩ | ⟨hid, odd, hparity⟩
    · rw [fault?_of_recoveryId hlength hid]
      simp only [hparity]
      rfl
    · rw [fault?_of_range hlength hid]
      simp only [hparity]
      by_cases hformat : (ofBytes bs).InRange
      · rw [if_neg (mt hrange.2 (not_not_intro hformat)), if_neg (not_not_intro hformat)]
        have hs : (ofBytes bs).s = Bytes.toNat ((bs.drop 32).take 32) := rfl
        have hv : (parity? (ofBytes bs).v).getD false = odd := congrArg (Option.getD · false) hparity
        by_cases hhigh : order / 2 < (ofBytes bs).s
        · rw [if_pos hhigh, if_pos (hs ▸ hhigh)]
        · rw [if_neg hhigh, if_neg (hs ▸ hhigh), hv]
          rfl
      · rw [if_pos (hrange.1 hformat), if_pos hformat]
  · rw [if_pos hlength, fault?_of_length hlength]

/-! ### The verdict -/

/-- The curve has been asked, and it gave an account or none. -/
def Heard (result : Except SignatureError Address) : Prop := (∃ a, result = .ok a) ∨ result = .error .recovery

private theorem heard_iff : Heard (recover bs message) ↔ fault? bs = none := by
  rw [recover_eq_recoverDigest, recoverDigest]
  cases hfault : fault? bs with
  | some e =>
    have hbytes : e ≠ .recovery := fun he => fault?_ne_recovery bs (he ▸ hfault)
    simp [Heard, hbytes]
  | none =>
    generalize recoverPoint (ofBytes bs).r (ofBytes bs).s _ _ = found
    cases found <;> simp [Heard]

/-- A fault of the bytes is what whoever recovers is told. -/
private theorem recover_eq_error_iff {e : SignatureError} (h : e ≠ .recovery) :
    recover bs message = .error e ↔ fault? bs = some e := by
  rw [recover_eq_recoverDigest, recoverDigest]
  cases fault? bs with
  | some e' => simp
  | none =>
    generalize recoverPoint (ofBytes bs).r (ofBytes bs).s _ _ = found
    cases found <;> simp [h.symm]

private theorem Signature.ofBytes_concat {r s : Bytes} (hr : r.length = 32) (hs : s.length = 32) (v : UInt8) :
    ofBytes (r ++ s ++ [v]) = ⟨r.toNat, s.toNat, v⟩ := by
  have hlength : (r ++ s).length = 64 := by rw [List.length_append, hr, hs]
  have hv : (r ++ s ++ [v]).getD 64 0 = v := by
    rw [← hlength, List.getD_eq_getElem?_getD, List.getElem?_concat_length, Option.getD_some]
  rw [ofBytes, hv, List.append_assoc, List.take_left' hr, List.drop_left' hr, List.take_left' hs]

/-- Of the last byte only the parity matters. -/
private theorem recover_concat_congr {rs : Bytes} {v v' : UInt8} (hv : v ∈ recoveryIds) (hv' : v' ∈ recoveryIds)
    (hparity : parity? v = parity? v') : recover (rs ++ [v]) message = recover (rs ++ [v']) message := by
  have hsame : (rs ++ [v]).length = (rs ++ [v']).length := by simp
  rw [recover_eq_recoverDigest, recover_eq_recoverDigest, recoverDigest, recoverDigest]
  by_cases hlength : rs.length = 64
  · have hr : (rs.take 32).length = 32 := by rw [List.length_take, hlength, Nat.min_eq_left (by decide)]
    have hs : (rs.drop 32).length = 32 := by rw [List.length_drop, hlength]
    have hlength : (rs ++ [v]).length = 65 := by rw [List.length_append, hlength, List.length_singleton]
    have hparts := fun u => Signature.ofBytes_concat hr hs u
    rw [List.take_append_drop] at hparts
    rw [fault?_of_range hlength (by rw [hparts]; exact hv), fault?_of_range (hsame ▸ hlength) (by rw [hparts]; exact hv'),
      hparts, hparts, hparity]
    rfl
  · have hlength : (rs ++ [v]).length ≠ 65 := by
      rw [List.length_append, List.length_singleton]
      omega
    rw [fault?_of_length hlength, fault?_of_length (hsame ▸ hlength), hsame]

theorem recover_concat_add {rs : Bytes} {v : UInt8} (hv : v = 0 ∨ v = 1) :
    recover (rs ++ [v]) message = recover (rs ++ [v + 27]) message := by
  rcases hv with rfl | rfl
  · exact recover_concat_congr (by decide) (by decide) rfl
  · exact recover_concat_congr (by decide) (by decide) rfl

/-- The bytes of a signature with another value of `s` and another last byte. -/
def Signature.withS (bs : Bytes) (s : Nat) (v : UInt8) : Bytes := bs.take 32 ++ Bytes.ofNat 32 s ++ [v]

/-- If a signature shows no fault, the one with the negative of `s` shows that its `s` is high. -/
private theorem fault?_withS_sub {v : UInt8} (h : fault? bs = none) (hv : v ∈ recoveryIds) :
    fault? (withS bs (order - (ofBytes bs).s) v) = some .highS := by
  have horder := order_odd
  obtain ⟨hlength, -, ⟨hr, hs⟩, hlow⟩ := (fault?_iff bs).2.2.2.2.1 h
  have htake : (bs.take 32).length = 32 := by rw [List.length_take, hlength, Nat.min_eq_left (by decide)]
  have hneg : order - (ofBytes bs).s < order := by omega
  have hparts : ofBytes (withS bs (order - (ofBytes bs).s) v) = ⟨(ofBytes bs).r, order - (ofBytes bs).s, v⟩ := by
    rw [withS, ofBytes_concat htake (Bytes.length_ofNat 32 _), Bytes.toNat_ofNat_of_lt hneg]
    rfl
  have hbytes : (withS bs (order - (ofBytes bs).s) v).length = 65 := by
    rw [withS, List.length_append, List.length_append, htake, Bytes.length_ofNat, List.length_singleton]
  rw [(fault?_iff _).2.2.2.1, hparts]
  have hhigh : order < 2 * (order - (ofBytes bs).s) := by omega
  exact ⟨hbytes, hv, ⟨hr, Nat.sub_pos_of_lt hs.2, hneg⟩, hhigh⟩

/-- How the signature of a message is judged, whatever its bytes are. Whoever recovers the signer is told the length unless it is
sixty-five; else the last byte, unless it is 0, 1, 27 or 28; else that the format is wrong, exactly if `r` or `s` is zero or
not below the order; else that the signature is malleable, exactly if `s` is more than half of the order. In all other cases,
and in no others, the curve is asked and gives an account or none. The last bytes `v` and `v + 27` mean the same. If the curve
has been asked about a signature, then the signature with the negative of `s` is refused as malleable, with every last byte
and for every message. -/
theorem recover_judges (bs message : Bytes) :
    (∀ n, recover bs message = .error (.length n) ↔ bs.length ≠ 65 ∧ n = bs.length) ∧
    (∀ v, recover bs message = .error (.recoveryId v) ↔
      bs.length = 65 ∧ (ofBytes bs).v ∉ [0, 1, 27, 28] ∧ v = (ofBytes bs).v) ∧
    (recover bs message = .error .format ↔ bs.length = 65 ∧ (ofBytes bs).v ∈ [0, 1, 27, 28] ∧
      ¬ ((0 < (ofBytes bs).r ∧ (ofBytes bs).r < order) ∧ 0 < (ofBytes bs).s ∧ (ofBytes bs).s < order)) ∧
    (recover bs message = .error .highS ↔ bs.length = 65 ∧ (ofBytes bs).v ∈ [0, 1, 27, 28] ∧
      ((0 < (ofBytes bs).r ∧ (ofBytes bs).r < order) ∧ 0 < (ofBytes bs).s ∧ (ofBytes bs).s < order) ∧
      order < 2 * (ofBytes bs).s) ∧
    (((∃ a, recover bs message = .ok a) ∨ recover bs message = .error .recovery) ↔
      bs.length = 65 ∧ (ofBytes bs).v ∈ [0, 1, 27, 28] ∧
      ((0 < (ofBytes bs).r ∧ (ofBytes bs).r < order) ∧ 0 < (ofBytes bs).s ∧ (ofBytes bs).s < order) ∧
      2 * (ofBytes bs).s ≤ order) ∧
    (∀ rs : Bytes, ∀ v ∈ [0, 1], recover (rs ++ [v]) message = recover (rs ++ [v + 27]) message) ∧
    (((∃ a, recover bs message = .ok a) ∨ recover bs message = .error .recovery) →
      ∀ v ∈ [0, 1, 27, 28], ∀ other,
        recover (bs.take 32 ++ Bytes.ofNat 32 (order - (ofBytes bs).s) ++ [v]) other = .error .highS) := by
  obtain ⟨hlength, hid, hformat, hhigh, hnone⟩ := fault?_iff bs
  refine ⟨fun n => ?_, fun v => ?_, ?_, ?_, ?_, fun rs v hv => ?_, fun hheard v hv other => ?_⟩
  · exact (recover_eq_error_iff (by nofun)).trans (hlength n)
  · exact (recover_eq_error_iff (by nofun)).trans (hid v)
  · exact (recover_eq_error_iff (by nofun)).trans hformat
  · exact (recover_eq_error_iff (by nofun)).trans hhigh
  · exact heard_iff.trans hnone
  · exact recover_concat_add (by simpa using hv)
  · exact (recover_eq_error_iff (by nofun)).2 (fault?_withS_sub (heard_iff.1 hheard) hv)

/-- The bytes of the least signature of all. -/
def Signature.least : Bytes := toBytes ⟨1, 1, 0⟩

/-- The curve is asked about the least signature, and about no other one with the same `r` and the negative of its `s`. -/
theorem least_judged : ((∃ a, recover least [] = .ok a) ∨ recover least [] = .error .recovery) ∧
    ∀ v ∈ [0, 1, 27, 28], recover (least.take 32 ++ Bytes.ofNat 32 (order - 1) ++ [v]) [] = .error .highS := by
  obtain ⟨-, -, -, -, hheard, -, htwin⟩ := recover_judges least []
  have hs : (ofBytes least).s = 1 := by decide +kernel
  have hleast := hheard.2 (by decide +kernel)
  exact ⟨hleast, fun v hv => hs ▸ htwin hleast v hv []⟩

end SecretsGateway
