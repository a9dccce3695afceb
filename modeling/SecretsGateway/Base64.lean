import SecretsGateway.Bytes

/-!
# Base64

The standard alphabet. Written text is padded to groups of four; in read text the padding may be left out, but what is
there must be right, and the bits that no byte uses must be zero. A refusal names the first offence, except that a
single character after the last full group is judged before all others.
-/

namespace SecretsGateway

inductive Base64Error where
  /-- A byte outside the alphabet, or padding where none may stand. -/
  | badSymbol (byte : UInt8) (offset : Nat)
  /-- The last group has fewer than two symbols; the length up to there. -/
  | badLength (length : Nat)
  /-- The last symbol has bits set that no byte uses. -/
  | badLast (byte : UInt8) (offset value : Nat)
  deriving DecidableEq, Repr

namespace Base64

/-- The byte that stands for a number below sixty-four. -/
def symbol (n : Nat) : UInt8 :=
  if n < 26 then UInt8.ofNat (65 + n)
  else if n < 52 then UInt8.ofNat (71 + n)
  else if n < 62 then UInt8.ofNat (n - 4)
  else if n = 62 then 43 else 47

def value? (b : UInt8) : Option Nat :=
  if 65 ≤ b ∧ b ≤ 90 then some (b.toNat - 65)
  else if 97 ≤ b ∧ b ≤ 122 then some (b.toNat - 71)
  else if 48 ≤ b ∧ b ≤ 57 then some (b.toNat + 4)
  else if b = 43 then some 62
  else if b = 47 then some 63
  else none

def padding : UInt8 := 61

def encode : Bytes → Bytes
  | a :: b :: c :: rest =>
    let n := a.toNat * 65536 + b.toNat * 256 + c.toNat
    symbol (n / 262144) :: symbol (n / 4096 % 64) :: symbol (n / 64 % 64) :: symbol (n % 64) :: encode rest
  | [a, b] =>
    let n := a.toNat * 256 + b.toNat
    [symbol (n / 1024), symbol (n / 16 % 64), symbol (n * 4 % 64), padding]
  | [a] => [symbol (a.toNat / 4), symbol (a.toNat * 16 % 64), padding, padding]
  | [] => []

/-- The numbers of the symbols of the last group, which ends at the first padding. -/
def lastGroup (offset : Nat) : (index : Nat) → (padded : Option Nat) → Bytes → Except Base64Error (List Nat)
  | _, _, [] => .ok []
  | index, padded, b :: rest =>
    if b = padding then
      if index < 2 then .error (.badSymbol b (offset + index))
      else lastGroup offset (index + 1) (some (padded.getD index)) rest
    else match padded with
      | some first => .error (.badSymbol padding (offset + first))
      | none =>
        match value? b with
        | none => .error (.badSymbol b (offset + index))
        | some n => (lastGroup offset (index + 1) none rest).map (n :: ·)

/-- The bytes of the last group. -/
def decodeLast (offset : Nat) (group : Bytes) : Except Base64Error Bytes :=
  match lastGroup offset 0 none group with
  | .error e => .error e
  | .ok [] => if group.isEmpty then .ok [] else .error (.badLength offset)
  | .ok [_] => .error (.badLength (offset + 1))
  | .ok [a, b] =>
    if b % 16 ≠ 0 then .error (.badLast (group.getD 1 0) (offset + 1) b) else .ok [UInt8.ofNat (a * 4 + b / 16)]
  | .ok [a, b, c] =>
    if c % 4 ≠ 0 then .error (.badLast (group.getD 2 0) (offset + 2) c)
    else .ok [UInt8.ofNat (a * 4 + b / 16), UInt8.ofNat (b * 16 + c / 4)]
  | .ok (a :: b :: c :: d :: _) =>
    .ok [UInt8.ofNat (a * 4 + b / 16), UInt8.ofNat (b * 16 + c / 4), UInt8.ofNat (c * 64 + d)]

/-- The number of a symbol inside a full group. -/
def symbolAt (offset : Nat) (b : UInt8) : Except Base64Error Nat :=
  match value? b with
  | some n => .ok n
  | none => .error (.badSymbol b offset)

/-- The bytes of all groups; a group is the last one if nothing follows it. -/
def decodeGroups (offset : Nat) : Bytes → Except Base64Error Bytes
  | a :: b :: c :: d :: e :: rest => do
    let a ← symbolAt offset a
    let b ← symbolAt (offset + 1) b
    let c ← symbolAt (offset + 2) c
    let d ← symbolAt (offset + 3) d
    let bs ← decodeGroups (offset + 4) (e :: rest)
    return UInt8.ofNat (a * 4 + b / 16) :: UInt8.ofNat (b * 16 + c / 4) :: UInt8.ofNat (c * 64 + d) :: bs
  | group => decodeLast offset group

/-- The bytes that a text spells. -/
def decode (bs : Bytes) : Except Base64Error Bytes :=
  let last := bs.getLastD 0
  if bs.length % 4 = 1 ∧ last ≠ padding ∧ (value? last).isNone then .error (.badSymbol last (bs.length - 1))
  else decodeGroups 0 bs

end Base64

/-- A number below 256 with eight binary digits. -/
def binaryText (n : Nat) : String :=
  String.ofList ((List.range 8).reverse.map fun i => if n.testBit i then '1' else '0')

def Base64Error.message : Base64Error → String
  | .badSymbol byte offset => s!"Invalid symbol {byte}, offset {offset}."
  | .badLength length => s!"Invalid input length: {length}"
  | .badLast byte offset value =>
    let shown := String.ofList [Char.ofNat byte.toNat]
    let hex := String.ofList (Nat.toDigits 16 byte.toNat)
    let binary := binaryText value
    s!"Invalid last symbol 0x{hex} ('{shown}') at offset {offset}, decoded as 0b{binary}."

end SecretsGateway
