import SecretsGateway.Hex

/-!
# Account addresses

An address is twenty bytes. It is written as `0x` and forty lower-case digits, and read with or without a mark
`0x` or `0X` and in either case; `Address.parse` says why a text is refused.
-/

namespace SecretsGateway

/-- The name of an account: twenty bytes. -/
structure Address where
  bytes : Bytes
  length_bytes : bytes.length = 20
  deriving DecidableEq

inductive AddressError where
  /-- There are not forty digits but this many bytes. -/
  | length (got : Nat)
  /-- Some character is no digit. -/
  | digit
  deriving DecidableEq, Repr

def AddressError.message : AddressError → String
  | .length got => s!"Invalid address length: expected 40 hex digits, got {got}"
  | .digit => "Invalid hex in address"

namespace Address

def zero : Address := ⟨List.replicate 20 0, by simp⟩

/-- The last twenty bytes of a longer byte string, zeros in front of a shorter one. -/
def ofLastBytes (bs : Bytes) : Address :=
  ⟨(bs.reverse ++ List.replicate 20 0).take 20 |>.reverse, by simp⟩

/-- The address of exactly twenty bytes. -/
def ofBytes? (bs : Bytes) : Option Address :=
  if h : bs.length = 20 then some ⟨bs, h⟩ else none

/-- The written form: `0x` and forty lower-case digits. -/
def toHex (a : Address) : String := Hex.marked a.bytes

instance : ToString Address := ⟨toHex⟩

/-- A text less one mark `0x` or else `0X`. -/
def unmarked : List Char → List Char
  | '0' :: 'x' :: rest => rest
  | '0' :: 'X' :: rest => rest
  | cs => cs

/-- Reads an address; the length is judged, in bytes, before the digits. -/
def parse (s : String) : Except AddressError Address :=
  let digits := unmarked s.toList
  let size := (String.ofList digits).utf8ByteSize
  if size ≠ 40 then .error (.length size)
  else match (Hex.decode? digits).bind ofBytes? with
    | some a => .ok a
    | none => .error .digit

/-- Addresses compare byte by byte. -/
instance : Ord Address := ⟨fun a b => compareOfLessAndEq a.bytes b.bytes⟩

end Address

end SecretsGateway
