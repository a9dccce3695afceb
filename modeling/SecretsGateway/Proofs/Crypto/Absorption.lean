import SecretsGateway.Crypto.Keccak

/-!
# Keccak-256 of a message in parts

A message need not be given in one piece. An absorption takes its parts in one after the other: the bytes that fill a block go
into the state, and those of a block that is not full yet wait for the next part. In the end the waiting bytes are padded and
go in, too. What has gone in and what waits is at any time told by the bytes so far (`Keccak.Absorption.Holds`), so a digest
does not depend on where the message is cut (`Keccak.digestParts_eq`).
-/

namespace SecretsGateway

namespace Bytes

variable {size : Nat} {front : Bytes}

/-- The bytes that whole blocks leave over. -/
def rest (size : Nat) (bs : Bytes) : Bytes := bs.drop (bs.length / size * size)

private theorem length_rest (size : Nat) (bs : Bytes) : (rest size bs).length = bs.length % size := by
  rw [rest, List.length_drop, Nat.mod_eq_sub_mul_div, Nat.mul_comm]

private theorem blocks_append_of_dvd (h : size ∣ front.length) (bs : Bytes) :
    blocks size (front ++ bs) = blocks size front ++ blocks size bs := by
  obtain ⟨n, hn⟩ := h
  rcases Nat.eq_zero_or_pos size with rfl | hpos
  · simp [blocks]
  have hfront : front.length / size = n := by rw [hn, Nat.mul_div_cancel_left n hpos]
  have hboth : (front ++ bs).length / size = n + bs.length / size := by
    rw [List.length_append, hn, Nat.mul_add_div hpos]
  unfold blocks
  rw [hboth, hfront, List.range_add, List.map_append, List.map_map]
  congr 1
  · refine List.map_congr_left fun i hi => ?_
    have hend : i * size + size ≤ front.length := by
      rw [hn, Nat.mul_comm size, ← Nat.succ_mul]
      exact Nat.mul_le_mul_right size (List.mem_range.1 hi)
    rw [List.drop_append_of_le_length (by omega), List.take_append_of_le_length (by rw [List.length_drop]; omega)]
  · refine List.map_congr_left fun i _ => ?_
    have hlength : (n + i) * size = front.length + i * size := by rw [hn, Nat.add_mul, Nat.mul_comm n]
    rw [Function.comp_apply, hlength, List.drop_length_add_append]

private theorem rest_append_of_dvd (h : size ∣ front.length) (bs : Bytes) : rest size (front ++ bs) = rest size bs := by
  obtain ⟨n, hn⟩ := h
  rcases Nat.eq_zero_or_pos size with rfl | hpos
  · have hnil : front = [] := List.eq_nil_of_length_eq_zero (by rw [hn, Nat.zero_mul])
    rw [hnil, List.nil_append]
  have hlength : (front ++ bs).length / size * size = front.length + bs.length / size * size := by
    rw [List.length_append, hn, Nat.mul_add_div hpos, Nat.add_mul, Nat.mul_comm n]
  rw [rest, rest, hlength, List.drop_length_add_append]

private theorem blocks_of_length_lt {bs : Bytes} (h : bs.length < size) : blocks size bs = [] := by
  rw [blocks, Nat.div_eq_of_lt h]
  rfl

/-- A byte string is a number of whole blocks, followed by what they leave over. -/
private theorem exists_eq_append_rest (size : Nat) (bs : Bytes) :
    ∃ front, size ∣ front.length ∧ front ++ rest size bs = bs := by
  refine ⟨bs.take (bs.length / size * size), ?_, List.take_append_drop _ _⟩
  rw [List.length_take, Nat.min_eq_left (Nat.div_mul_le_self _ _)]
  exact Nat.dvd_mul_left _ _

private theorem gap_of_dvd (h : size ∣ front.length) (n : Nat) : gap size (front.length + n) = gap size n := by
  obtain ⟨k, hk⟩ := h
  rw [gap, gap, hk, Nat.mul_add_mod]

end Bytes

namespace Keccak

/-- A digest on its way: the state, and the bytes that wait for a full block. -/
structure Absorption where
  lanes : Lanes
  waiting : Bytes

namespace Absorption

/-- The state after the whole blocks of a byte string. -/
def absorb (s : Lanes) (bs : Bytes) : Lanes :=
  (Bytes.blocks rate bs).foldl (fun s block => permute (addBlock s block)) s

/-- Nothing has been taken in. -/
def start : Absorption := ⟨Vector.replicate 25 0, []⟩

/-- Takes in one more part. -/
def update (a : Absorption) (part : Bytes) : Absorption :=
  ⟨absorb a.lanes (a.waiting ++ part), Bytes.rest rate (a.waiting ++ part)⟩

/-- Pads what waits and gives the digest. -/
def finish (a : Absorption) : Bytes := ((absorb a.lanes (pad a.waiting)).toList.take 4).flatMap laneBytes

variable {s : Lanes} {front message : Bytes} {a : Absorption}

private theorem absorb_append_of_dvd (h : rate ∣ front.length) (bs : Bytes) :
    absorb s (front ++ bs) = absorb (absorb s front) bs := by
  rw [absorb, Bytes.blocks_append_of_dvd h, List.foldl_append]
  rfl

private theorem absorb_of_length_lt {bs : Bytes} (h : bs.length < rate) : absorb s bs = s := by
  rw [absorb, Bytes.blocks_of_length_lt h]
  rfl

/-- Only what whole blocks leave over is padded. -/
private theorem pad_append_of_dvd (h : rate ∣ front.length) (bs : Bytes) : pad (front ++ bs) = front ++ pad bs := by
  have hgap : Bytes.gap rate ((front ++ bs).length + 1) = Bytes.gap rate (bs.length + 1) := by
    rw [List.length_append, Nat.add_assoc]
    exact Bytes.gap_of_dvd h _
  unfold pad
  rw [hgap]
  split <;> rw [List.append_assoc]

/-- The absorption has taken in a message: its whole blocks are in the state, and the other bytes wait. -/
structure Holds (a : Absorption) (message : Bytes) : Prop where
  lanes : a.lanes = absorb start.lanes message
  waiting : a.waiting = Bytes.rest rate message

private theorem holds_start : start.Holds [] := ⟨rfl, rfl⟩

/-- A message in whole blocks and the rest, as an absorption sees it. -/
private theorem Holds.exists_front (h : a.Holds message) : ∃ front, rate ∣ front.length ∧ front ++ a.waiting = message ∧
    a.lanes = absorb start.lanes front := by
  obtain ⟨front, hdvd, hmessage⟩ := Bytes.exists_eq_append_rest rate message
  refine ⟨front, hdvd, by rw [h.waiting, hmessage], ?_⟩
  have hrest : (Bytes.rest rate message).length < rate := by
    rw [Bytes.length_rest]
    exact Nat.mod_lt _ (by decide)
  rw [h.lanes, ← hmessage, absorb_append_of_dvd hdvd, absorb_of_length_lt hrest]

private theorem Holds.update (h : a.Holds message) (part : Bytes) : (a.update part).Holds (message ++ part) := by
  obtain ⟨front, hdvd, hmessage, hlanes⟩ := h.exists_front
  have hlonger : message ++ part = front ++ (a.waiting ++ part) := by rw [← hmessage, List.append_assoc]
  constructor
  · rw [Absorption.update, hlanes, hlonger, absorb_append_of_dvd hdvd]
  · rw [Absorption.update, hlonger, Bytes.rest_append_of_dvd hdvd]

private theorem Holds.foldl_update (h : a.Holds message) (parts : List Bytes) :
    (parts.foldl Absorption.update a).Holds (message ++ parts.flatten) := by
  induction parts generalizing a message with
  | nil =>
    rw [List.flatten_nil, List.append_nil]
    exact h
  | cons part parts ih =>
    rw [List.foldl_cons, List.flatten_cons, ← List.append_assoc]
    exact ih (h.update part)

/-- What is given in the end is the digest of the message that has been taken in. -/
private theorem Holds.finish (h : a.Holds message) : a.finish = digest message := by
  obtain ⟨front, hdvd, rfl, hlanes⟩ := h.exists_front
  have hdigest : ∀ m, digest m = ((absorb start.lanes (pad m)).toList.take 4).flatMap laneBytes := fun m => rfl
  rw [hdigest, pad_append_of_dvd hdvd, absorb_append_of_dvd hdvd, ← hlanes, Absorption.finish]

end Absorption

/-- The digest of a message that is given in parts. -/
def digestParts (parts : List Bytes) : Bytes := (parts.foldl Absorption.update .start).finish

/-- It does not matter where a message is cut. -/
theorem digestParts_eq (parts : List Bytes) : digestParts parts = digest parts.flatten :=
  (Absorption.holds_start.foldl_update parts).finish

end Keccak

end SecretsGateway
