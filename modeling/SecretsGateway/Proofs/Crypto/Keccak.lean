import SecretsGateway.Crypto.Keccak

/-!
# Keccak-256 on plain lists

The layers of a round once more, with every lane spelt out. They do the same as the layers on vectors
(`Keccak.toList_permute`), and a digest can be computed with them inside a proof, for which `Keccak.digest_eq` is there.
-/

namespace SecretsGateway.Keccak

namespace Flat

/-- Adds to each lane the parities of the two columns beside its own. -/
def theta : List UInt64 → List UInt64
  | [a0, a1, a2, a3, a4, a5, a6, a7, a8, a9, a10, a11, a12, a13, a14, a15, a16, a17, a18, a19, a20, a21, a22,
     a23, a24] =>
    let c0 := a0 ^^^ a5 ^^^ a10 ^^^ a15 ^^^ a20
    let c1 := a1 ^^^ a6 ^^^ a11 ^^^ a16 ^^^ a21
    let c2 := a2 ^^^ a7 ^^^ a12 ^^^ a17 ^^^ a22
    let c3 := a3 ^^^ a8 ^^^ a13 ^^^ a18 ^^^ a23
    let c4 := a4 ^^^ a9 ^^^ a14 ^^^ a19 ^^^ a24
    let d0 := rotl c0 1
    let d1 := rotl c1 1
    let d2 := rotl c2 1
    let d3 := rotl c3 1
    let d4 := rotl c4 1
    [a0 ^^^ c4 ^^^ d1, a1 ^^^ c0 ^^^ d2, a2 ^^^ c1 ^^^ d3, a3 ^^^ c2 ^^^ d4, a4 ^^^ c3 ^^^ d0, a5 ^^^ c4 ^^^ d1,
     a6 ^^^ c0 ^^^ d2, a7 ^^^ c1 ^^^ d3, a8 ^^^ c2 ^^^ d4, a9 ^^^ c3 ^^^ d0, a10 ^^^ c4 ^^^ d1,
     a11 ^^^ c0 ^^^ d2, a12 ^^^ c1 ^^^ d3, a13 ^^^ c2 ^^^ d4, a14 ^^^ c3 ^^^ d0, a15 ^^^ c4 ^^^ d1,
     a16 ^^^ c0 ^^^ d2, a17 ^^^ c1 ^^^ d3, a18 ^^^ c2 ^^^ d4, a19 ^^^ c3 ^^^ d0, a20 ^^^ c4 ^^^ d1,
     a21 ^^^ c0 ^^^ d2, a22 ^^^ c1 ^^^ d3, a23 ^^^ c2 ^^^ d4, a24 ^^^ c3 ^^^ d0]
  | _ => []

/-- Turns the lanes and moves them. -/
def turn : List UInt64 → List UInt64
  | [a0, a1, a2, a3, a4, a5, a6, a7, a8, a9, a10, a11, a12, a13, a14, a15, a16, a17, a18, a19, a20, a21, a22,
     a23, a24] =>
    [rotl a0 0, rotl a6 44, rotl a12 43, rotl a18 21, rotl a24 14, rotl a3 28, rotl a9 20, rotl a10 3,
     rotl a16 45, rotl a22 61, rotl a1 1, rotl a7 6, rotl a13 25, rotl a19 8, rotl a20 18, rotl a4 27,
     rotl a5 36, rotl a11 10, rotl a17 15, rotl a23 56, rotl a2 62, rotl a8 55, rotl a14 39, rotl a15 41,
     rotl a21 2]
  | _ => []

/-- Mixes each row. -/
def chi : List UInt64 → List UInt64
  | [a0, a1, a2, a3, a4, a5, a6, a7, a8, a9, a10, a11, a12, a13, a14, a15, a16, a17, a18, a19, a20, a21, a22,
     a23, a24] =>
    [a0 ^^^ (~~~ a1 &&& a2), a1 ^^^ (~~~ a2 &&& a3), a2 ^^^ (~~~ a3 &&& a4), a3 ^^^ (~~~ a4 &&& a0),
     a4 ^^^ (~~~ a0 &&& a1), a5 ^^^ (~~~ a6 &&& a7), a6 ^^^ (~~~ a7 &&& a8), a7 ^^^ (~~~ a8 &&& a9),
     a8 ^^^ (~~~ a9 &&& a5), a9 ^^^ (~~~ a5 &&& a6), a10 ^^^ (~~~ a11 &&& a12), a11 ^^^ (~~~ a12 &&& a13),
     a12 ^^^ (~~~ a13 &&& a14), a13 ^^^ (~~~ a14 &&& a10), a14 ^^^ (~~~ a10 &&& a11), a15 ^^^ (~~~ a16 &&& a17),
     a16 ^^^ (~~~ a17 &&& a18), a17 ^^^ (~~~ a18 &&& a19), a18 ^^^ (~~~ a19 &&& a15), a19 ^^^ (~~~ a15 &&& a16),
     a20 ^^^ (~~~ a21 &&& a22), a21 ^^^ (~~~ a22 &&& a23), a22 ^^^ (~~~ a23 &&& a24), a23 ^^^ (~~~ a24 &&& a20),
     a24 ^^^ (~~~ a20 &&& a21)]
  | _ => []

/-- One round. -/
def round (s : List UInt64) (constant : UInt64) : List UInt64 :=
  match chi (turn (theta s)) with
  | a :: s => (a ^^^ constant) :: s
  | [] => []

/-- Adds a block of `rate` bytes to the first lanes. -/
def addBlock (s : List UInt64) (block : Bytes) : List UInt64 :=
  List.zipWith (· ^^^ ·) s ((Bytes.blocks 8 block).map littleEndian ++ List.replicate 25 0)

/-- The 32-byte digest of a message. -/
def digest (message : Bytes) : Bytes :=
  let s := (Bytes.blocks rate (pad message)).foldl (fun s block => roundConstants.foldl round (addBlock s block))
    (List.replicate 25 0)
  (s.take 4).flatMap laneBytes

end Flat

private theorem ofFn_lanes {α : Type} (f : Fin 25 → α) : Vector.ofFn f =
    #v[f 0, f 1, f 2, f 3, f 4, f 5, f 6, f 7, f 8, f 9, f 10, f 11, f 12, f 13, f 14, f 15, f 16, f 17, f 18,
    f 19, f 20, f 21, f 22, f 23, f 24] := by
  apply Vector.toList_inj.1
  rw [Vector.toList_ofFn]
  simp [List.ofFn_succ]

private theorem ofFn_columns {α : Type} (f : Fin 5 → α) : Vector.ofFn f = #v[f 0, f 1, f 2, f 3, f 4] := by
  apply Vector.toList_inj.1
  rw [Vector.toList_ofFn]
  simp [List.ofFn_succ]

/-- A state is the vector of its lanes. -/
private theorem eq_lanes (s : Lanes) : s =
    #v[s.get 0, s.get 1, s.get 2, s.get 3, s.get 4, s.get 5, s.get 6, s.get 7, s.get 8, s.get 9, s.get 10,
    s.get 11, s.get 12, s.get 13, s.get 14, s.get 15, s.get 16, s.get 17, s.get 18, s.get 19, s.get 20,
    s.get 21, s.get 22, s.get 23, s.get 24] := by
  rw [← ofFn_lanes]
  ext i h
  simp [Vector.get]

private theorem toList_theta (s : Lanes) : (theta s).toList = Flat.theta s.toList := by
  rw [eq_lanes s]
  simp only [theta, ofFn_lanes, ofFn_columns, column, Vector.toList_mk]
  rfl

private theorem toList_turn (s : Lanes) : (turn s).toList = Flat.turn s.toList := by
  rw [eq_lanes s]
  simp only [turn, ofFn_lanes, Vector.toList_mk]
  rfl

private theorem toList_chi (s : Lanes) : (chi s).toList = Flat.chi s.toList := by
  rw [eq_lanes s]
  simp only [chi, ofFn_lanes, Vector.toList_mk]
  rfl

private theorem toList_round (s : Lanes) (constant : UInt64) : (round s constant).toList = Flat.round s.toList constant := by
  have hchi : Flat.chi (Flat.turn (Flat.theta s.toList)) = (chi (turn (theta s))).toList := by
    rw [toList_chi, toList_turn, toList_theta]
  unfold round Flat.round
  rw [hchi]
  generalize chi (turn (theta s)) = t
  obtain ⟨⟨lanes⟩, h⟩ := t
  cases lanes with
  | nil => cases h
  | cons a lanes => rfl

/-- The permutation does the same on lists and on vectors. -/
theorem toList_permute (s : Lanes) : (permute s).toList = roundConstants.foldl Flat.round s.toList := by
  unfold permute
  generalize roundConstants = constants
  induction constants generalizing s with
  | nil => rfl
  | cons constant constants ih =>
    rw [List.foldl_cons, List.foldl_cons, ih, toList_round]

private theorem toList_addBlock (s : Lanes) (block : Bytes) : (addBlock s block).toList = Flat.addBlock s.toList block := by
  unfold addBlock Flat.addBlock
  generalize (Bytes.blocks 8 block).map littleEndian = words
  rw [Vector.toList_ofFn]
  apply List.ext_getElem
  · simp
  · intro i h₁ h₂
    rw [List.getElem_ofFn, List.getElem_zipWith]
    by_cases hi : i < words.length
    · simp [Vector.get, List.getElem_append_left hi, hi]
    · simp [-List.reduceReplicate, Vector.get, List.getElem_append_right (Nat.le_of_not_lt hi), hi]

/-- The digest of a message, ready to be computed. -/
theorem digest_eq (message : Bytes) : digest message = Flat.digest message := by
  have hfold : ∀ (blocks : List Bytes) (s : Lanes),
      (blocks.foldl (fun s block => permute (addBlock s block)) s).toList =
        blocks.foldl (fun s block => roundConstants.foldl Flat.round (Flat.addBlock s block)) s.toList := by
    intro blocks
    induction blocks with
    | nil => exact fun s => rfl
    | cons block blocks ih =>
      intro s
      rw [List.foldl_cons, List.foldl_cons, ih, toList_permute, toList_addBlock]
  show ((Vector.toList _).take 4).flatMap laneBytes = _
  rw [hfold]
  rfl

end SecretsGateway.Keccak
