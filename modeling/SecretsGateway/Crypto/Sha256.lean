import SecretsGateway.Bytes

/-!
# SHA-256 and its keyed form

The Merkle–Damgård hash over 64-byte blocks, and the keyed hash built from it. Both are used only to derive the
nonce of a signature.
-/

namespace SecretsGateway.Sha256

/-- The eight chaining words. -/
structure State where
  a : UInt32
  b : UInt32
  c : UInt32
  d : UInt32
  e : UInt32
  f : UInt32
  g : UInt32
  h : UInt32

/-- Rotation to the right; shift amounts count modulo the width. -/
def rotr (w : UInt32) (n : Nat) : UInt32 := w >>> n.toUInt32 ||| w <<< (32 - n).toUInt32

/-- The chaining words before the first block. -/
def initial : State :=
  ⟨0x6a09e667, 0xbb67ae85, 0x3c6ef372, 0xa54ff53a, 0x510e527f, 0x9b05688c, 0x1f83d9ab, 0x5be0cd19⟩

/-- One constant for each of the sixty-four steps. -/
def constants : List UInt32 :=
  [0x428a2f98, 0x71374491, 0xb5c0fbcf, 0xe9b5dba5, 0x3956c25b, 0x59f111f1, 0x923f82a4, 0xab1c5ed5,
   0xd807aa98, 0x12835b01, 0x243185be, 0x550c7dc3, 0x72be5d74, 0x80deb1fe, 0x9bdc06a7, 0xc19bf174,
   0xe49b69c1, 0xefbe4786, 0x0fc19dc6, 0x240ca1cc, 0x2de92c6f, 0x4a7484aa, 0x5cb0a9dc, 0x76f988da,
   0x983e5152, 0xa831c66d, 0xb00327c8, 0xbf597fc7, 0xc6e00bf3, 0xd5a79147, 0x06ca6351, 0x14292967,
   0x27b70a85, 0x2e1b2138, 0x4d2c6dfc, 0x53380d13, 0x650a7354, 0x766a0abb, 0x81c2c92e, 0x92722c85,
   0xa2bfe8a1, 0xa81a664b, 0xc24b8b70, 0xc76c51a3, 0xd192e819, 0xd6990624, 0xf40e3585, 0x106aa070,
   0x19a4c116, 0x1e376c08, 0x2748774c, 0x34b0bcb5, 0x391c0cb3, 0x4ed8aa4a, 0x5b9cca4f, 0x682e6ff3,
   0x748f82ee, 0x78a5636f, 0x84c87814, 0x8cc70208, 0x90befffa, 0xa4506ceb, 0xbef9a3f7, 0xc67178f2]

/-- One step, with its word of the schedule and its constant. -/
def step (s : State) (word constant : UInt32) : State :=
  let sum1 := rotr s.e 6 ^^^ rotr s.e 11 ^^^ rotr s.e 25
  let choice := (s.e &&& s.f) ^^^ (~~~ s.e &&& s.g)
  let t1 := s.h + sum1 + choice + constant + word
  let sum0 := rotr s.a 2 ^^^ rotr s.a 13 ^^^ rotr s.a 22
  let majority := (s.a &&& s.b) ^^^ (s.a &&& s.c) ^^^ (s.b &&& s.c)
  ⟨t1 + (sum0 + majority), s.a, s.b, s.c, s.d + t1, s.e, s.f, s.g⟩

/-- The next `count` words of a schedule that is kept newest first. -/
def extend : (count : Nat) → (newestFirst : List UInt32) → List UInt32
  | 0, ws => ws
  | count + 1, ws =>
    let near := ws.getD 1 0
    let far := ws.getD 14 0
    let s0 := rotr far 7 ^^^ rotr far 18 ^^^ far >>> 3
    let s1 := rotr near 17 ^^^ rotr near 19 ^^^ near >>> 10
    extend count ((ws.getD 15 0 + s0 + ws.getD 6 0 + s1) :: ws)

/-- The sixty-four words of a block: its own sixteen, then the extended ones. -/
def schedule (block : Bytes) : List UInt32 :=
  (extend 48 ((Bytes.blocks 4 block).map fun b => (Bytes.toNat b).toUInt32).reverse).reverse

/-- Folds one block into the chaining words. -/
def compress (s : State) (block : Bytes) : State :=
  let t := ((schedule block).zip constants).foldl (fun t w => step t w.1 w.2) s
  ⟨s.a + t.a, s.b + t.b, s.c + t.c, s.d + t.d, s.e + t.e, s.f + t.f, s.g + t.g, s.h + t.h⟩

/-- A message with a byte `0x80`, zeros, and its length in bits as eight bytes. -/
def pad (message : Bytes) : Bytes :=
  message ++ 0x80 :: (List.replicate (Bytes.gap 64 (message.length + 9)) 0 ++ Bytes.ofNat 8 (8 * message.length))

/-- The 32-byte digest of a message. -/
def digest (message : Bytes) : Bytes :=
  let s := (Bytes.blocks 64 (pad message)).foldl compress initial
  [s.a, s.b, s.c, s.d, s.e, s.f, s.g, s.h].flatMap fun w => Bytes.ofNat 4 w.toNat

/-- The keyed hash: the message is hashed inside two layers of the padded key. -/
def keyed (key message : Bytes) : Bytes :=
  let block := Bytes.padRight 64 (if key.length > 64 then digest key else key)
  digest (block.map (· ^^^ 0x5c) ++ digest (block.map (· ^^^ 0x36) ++ message))

end SecretsGateway.Sha256
