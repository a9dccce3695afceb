import SecretsGateway.Address
import SecretsGateway.Crypto.Keccak
import SecretsGateway.Crypto.Secp256k1
import SecretsGateway.Crypto.Sha256

/-!
# Recoverable signatures

A signature is sixty-five bytes `r ‖ s ‖ v` over the Keccak-256 digest of the signed bytes. Its nonce is derived from
the key and the digest, so signing is a function; `s` is always the lower of its two possible values, and `v` is the
parity that recovers the signer. `recover` judges length, `v`, the ranges of `r` and `s`, and the height of `s` in this
order before it looks for the signer.
-/

namespace SecretsGateway

open Secp256k1

/-- Why a key, a signature or a recovery fails. -/
inductive SignatureError where
  /-- The bytes are no secret key. -/
  | invalidKey
  /-- A signature has this many bytes and not sixty-five. -/
  | length (got : Nat)
  /-- The last byte is none of 0, 1, 27 and 28. -/
  | recoveryId (v : UInt8)
  /-- `r` or `s` is zero or not below the order. -/
  | format
  /-- `s` is the higher of its two values. -/
  | highS
  /-- No key made this signature. -/
  | recovery
  /-- No signature could be made. -/
  | signing
  deriving DecidableEq, Repr

def SignatureError.message : SignatureError → String
  | .invalidKey => "Invalid private key"
  | .length got => s!"Invalid signature length: expected 65, got {got}"
  | .recoveryId v => s!"Invalid recovery ID: {v}"
  | .format => "Invalid signature format"
  | .highS => "Malleable signature (high S value)"
  | .recovery => "Failed to recover public key"
  | .signing => "Signing failed"

namespace Secp256k1.Point

/-- The coordinates as sixty-four bytes; the point at infinity has none. -/
def coordinates : Point → Bytes
  | .infinity => []
  | .affine x y => Bytes.ofNat 32 x ++ Bytes.ofNat 32 y

/-- The public key as sixty-five bytes, marked with `04`. -/
def uncompressed (a : Point) : Bytes := 4 :: a.coordinates

/-- The account of a public key: the last twenty bytes of the digest of its coordinates. -/
def address (a : Point) : Address := Address.ofLastBytes (Keccak.digest a.coordinates)

end Secp256k1.Point

/-- A secret key: a number from one to below the order of the curve. -/
structure SigningKey where
  secret : Nat
  pos : 0 < secret
  lt_order : secret < order
  deriving DecidableEq

namespace SigningKey

/-- The key that 24 to 32 bytes spell. -/
def ofBytes (bs : Bytes) : Except SignatureError SigningKey :=
  if bs.length < 24 ∨ 32 < bs.length then .error .invalidKey
  else if h : 0 < bs.toNat ∧ bs.toNat < order then .ok ⟨bs.toNat, h.1, h.2⟩
  else .error .invalidKey

/-- The key spelt in hexadecimal, with or without a mark `0x`. -/
def ofHex (s : String) : Except SignatureError SigningKey :=
  match Hex.decode? (Hex.unmarked s.toList) with
  | some bs => ofBytes bs
  | none => .error .invalidKey

def publicKey (key : SigningKey) : Point := .mul key.secret generator

def address (key : SigningKey) : Address := key.publicKey.address

/-- A key as it may be shown: by its account. -/
def summary (key : SigningKey) : String := s!"MessageSigner \x7b address: Address({key.address}), .. \x7d"

end SigningKey

/-! ### The nonce -/

/-- The generator of nonces: a chain of keyed hashes. -/
structure NonceChain where
  key : Bytes
  value : Bytes

namespace NonceChain

/-- Mixes bytes into the chain. -/
def mix (c : NonceChain) (bs : Bytes) : NonceChain :=
  let key := Sha256.keyed c.key (c.value ++ bs)
  ⟨key, Sha256.keyed key c.value⟩

/-- The chain of a secret and a digest, both as 32 bytes. -/
def start (secret digest : Bytes) : NonceChain :=
  let c : NonceChain := ⟨List.replicate 32 0, List.replicate 32 1⟩
  (c.mix (0 :: (secret ++ digest))).mix (1 :: (secret ++ digest))

/-- The first value of the chain that is a number from one to below the order, within so many tries. -/
def draw : (tries : Nat) → NonceChain → Option Nat
  | 0, _ => none
  | tries + 1, c =>
    let value := Sha256.keyed c.key c.value
    let k := value.toNat
    if 0 < k ∧ k < order then some k else draw tries (mix ⟨c.key, value⟩ [0])

end NonceChain

/-- How many values of a chain are tried; each one fails with a probability below `2 ^ -127`. -/
def nonceTries : Nat := 64

/-! ### Signatures -/

structure Signature where
  r : Nat
  s : Nat
  v : UInt8
  deriving DecidableEq, Repr

namespace Signature

/-- The sixty-five bytes `r ‖ s ‖ v`. -/
def toBytes (sig : Signature) : Bytes := Bytes.ofNat 32 sig.r ++ Bytes.ofNat 32 sig.s ++ [sig.v]

def parity? (v : UInt8) : Option Bool :=
  if v = 0 ∨ v = 27 then some false else if v = 1 ∨ v = 28 then some true else none

end Signature

/-- The number that a digest stands for in a signature. -/
def digestNumber (digest : Bytes) : Nat := digest.toNat % order

namespace SigningKey

/-- Signs a digest. The higher value of `s` is replaced by its negative, and the parity of `v` turned with it. -/
def signDigest (key : SigningKey) (digest : Bytes) : Except SignatureError Signature :=
  let z := digestNumber digest
  match NonceChain.draw nonceTries (.start (Bytes.ofNat 32 key.secret) (Bytes.ofNat 32 z)) with
  | none => .error .signing
  | some k =>
    match Point.mul k generator with
    | .infinity => .error .signing
    | .affine x y =>
      let r := x % order
      let s := inverseMod order k * ((z + r * key.secret) % order) % order
      if r = 0 ∨ s = 0 then .error .signing
      else
        let high := decide (order / 2 < s)
        let odd := (y % 2 == 1) != high
        let v : UInt8 := (if odd then 1 else 0) + (if order ≤ x then 2 else 0)
        .ok ⟨r, if high then order - s else s, v⟩

/-- Signs the digest of a byte string; the answer is sixty-five bytes. -/
def sign (key : SigningKey) (message : Bytes) : Except SignatureError Bytes :=
  (key.signDigest (Keccak.digest message)).map Signature.toBytes

end SigningKey

/-- The public key that made the signature `r, s` with the given parity. -/
def recoverPoint (r s : Nat) (odd : Bool) (digest : Bytes) : Option Point := do
  let nonce ← Point.lift? r odd
  let w := inverseMod order r
  let left := Point.mul ((order - w * digestNumber digest % order) % order) generator
  let right := Point.mul (w * s % order) nonce
  match Point.add left right with
  | .infinity => none
  | key => some key

/-- The account whose key signed the digest of the message. -/
def recover (signature message : Bytes) : Except SignatureError Address :=
  if signature.length ≠ 65 then .error (.length signature.length)
  else
    let v := signature.getD 64 0
    match Signature.parity? v with
    | none => .error (.recoveryId v)
    | some odd =>
      let r := Bytes.toNat (signature.take 32)
      let s := Bytes.toNat ((signature.drop 32).take 32)
      if r = 0 ∨ order ≤ r ∨ s = 0 ∨ order ≤ s then .error .format
      else if order / 2 < s then .error .highS
      else match recoverPoint r s odd (Keccak.digest message) with
        | some key => .ok key.address
        | none => .error .recovery

end SecretsGateway
