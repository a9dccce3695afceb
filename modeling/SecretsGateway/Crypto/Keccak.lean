import SecretsGateway.Bytes

/-!
# Keccak-256

The sponge over 1600 bits with a rate of 136 bytes and the padding `0x01 … 0x80`. A state is twenty-five 64-bit
lanes, lane `(x, y)` at index `x + 5 * y`. A round is the composition of pure layers, each of which names every
new lane by the lanes it reads, so a single lane of a round can be computed without running the others.
-/

namespace SecretsGateway.Keccak

/-- The state of the sponge. -/
abbrev Lanes := Vector UInt64 25

/-- Rotation to the left; shift amounts count modulo the width. -/
def rotl (w : UInt64) (n : Nat) : UInt64 := w <<< n.toUInt64 ||| w >>> (64 - n).toUInt64

/-- The parity of column `x`. -/
def column (s : Lanes) (x : Fin 5) : UInt64 :=
  s[x.val] ^^^ s[x.val + 5] ^^^ s[x.val + 10] ^^^ s[x.val + 15] ^^^ s[x.val + 20]

/-- Adds to each lane the parities of the two columns beside its own. -/
def theta (s : Lanes) : Lanes :=
  let parity := Vector.ofFn (column s)
  Vector.ofFn fun i =>
    s.get i ^^^ parity.get ⟨(i.val + 4) % 5, by omega⟩ ^^^ rotl (parity.get ⟨(i.val + 1) % 5, by omega⟩) 1

/-- By how much each lane is turned. -/
def offsets : Vector Nat 25 :=
  #v[0, 1, 62, 28, 27, 36, 44, 6, 55, 20, 3, 10, 43, 25, 39, 41, 45, 15, 21, 8, 18, 2, 61, 56, 14]

/-- Turns the lanes and moves them: the new lane `(x, y)` is the old lane `(x + 3 * y, x)`. -/
def turn (s : Lanes) : Lanes :=
  Vector.ofFn fun i =>
    let j : Fin 25 := ⟨(i.val % 5 + 3 * (i.val / 5)) % 5 + 5 * (i.val % 5), by omega⟩
    rotl (s.get j) (offsets.get j)

/-- Mixes each row: a lane is changed where the next lane is clear and the one after it set. -/
def chi (s : Lanes) : Lanes :=
  Vector.ofFn fun i =>
    let next := s.get ⟨(i.val + 1) % 5 + 5 * (i.val / 5), by omega⟩
    let second := s.get ⟨(i.val + 2) % 5 + 5 * (i.val / 5), by omega⟩
    s.get i ^^^ (~~~ next &&& second)

/-- The constants that tell the rounds apart. -/
def roundConstants : List UInt64 :=
  [0x0000000000000001, 0x0000000000008082, 0x800000000000808A, 0x8000000080008000, 0x000000000000808B,
   0x0000000080000001, 0x8000000080008081, 0x8000000000008009, 0x000000000000008A, 0x0000000000000088,
   0x0000000080008009, 0x000000008000000A, 0x000000008000808B, 0x800000000000008B, 0x8000000000008089,
   0x8000000000008003, 0x8000000000008002, 0x8000000000000080, 0x000000000000800A, 0x800000008000000A,
   0x8000000080008081, 0x8000000000008080, 0x0000000080000001, 0x8000000080008008]

/-- One round. -/
def round (s : Lanes) (constant : UInt64) : Lanes :=
  let t := chi (turn (theta s))
  t.set 0 (t[0] ^^^ constant)

/-- The permutation: all rounds in order. -/
def permute (s : Lanes) : Lanes := roundConstants.foldl round s

/-- The bytes absorbed or squeezed between two permutations. -/
def rate : Nat := 136

/-- The number that up to eight bytes spell, least significant first. -/
def littleEndian (bs : Bytes) : UInt64 := bs.foldr (fun b n => n <<< 8 ||| b.toUInt64) 0

/-- Adds a block of `rate` bytes to the first lanes. -/
def addBlock (s : Lanes) (block : Bytes) : Lanes :=
  let words := ((Bytes.blocks 8 block).map littleEndian).toArray
  Vector.ofFn fun i => s.get i ^^^ words.getD i.val 0

/-- A message with its padding: a byte `0x01`, zeros, and the top bit of the last byte. -/
def pad (message : Bytes) : Bytes :=
  match Bytes.gap rate (message.length + 1) with
  | 0 => message ++ [0x81]
  | n + 1 => message ++ 0x01 :: (List.replicate n 0 ++ [0x80])

/-- The eight bytes of a lane, least significant first. -/
def laneBytes (w : UInt64) : Bytes := (List.range 8).map fun i => (w >>> (8 * i).toUInt64).toUInt8

/-- The 32-byte digest of a message. -/
def digest (message : Bytes) : Bytes :=
  let s := (Bytes.blocks rate (pad message)).foldl (fun s block => permute (addBlock s block)) (Vector.replicate 25 0)
  (s.toList.take 4).flatMap laneBytes

end SecretsGateway.Keccak
