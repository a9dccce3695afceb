import SecretsGateway.Hex
import SecretsGateway.Json.Reader

/-!
# Texts

A text is read byte by byte by a machine with a state for each place inside an escape. The bytes between the quotes,
with escapes resolved, must be valid UTF-8 as a whole. Escapes above the first plane come as pairs of surrogates.
-/

namespace SecretsGateway.Json

/-- The byte that a one-letter escape stands for. -/
def shortEscape? (b : UInt8) : Option UInt8 :=
  if b = quote ∨ b = backslash ∨ b = slash then some b
  else if b = 98 then some 8
  else if b = 102 then some 12
  else if b = 110 then some 10
  else if b = 114 then some 13
  else if b = 116 then some 9
  else none

/-- The letter of an escape with four hexadecimal digits. -/
def escapeU : UInt8 := 117

/-- The number that hexadecimal digits spell, if they are all digits. -/
def hexNumber? (ds : Bytes) : Option Nat :=
  ds.foldl (fun n d => do return (← n) * 16 + (← Hex.value? (Char.ofNat d.toNat))) (some 0)

/-- The number is the first half of a pair. -/
def isLeading (n : Nat) : Bool := 0xd800 ≤ n && n ≤ 0xdbff

/-- The number is the second half of a pair. -/
def isTrailing (n : Nat) : Bool := 0xdc00 ≤ n && n ≤ 0xdfff

/-- The code point of a pair. -/
def pairPoint (leading trailing : Nat) : Nat := (leading - 0xd800) * 0x400 + (trailing - 0xdc00) + 0x10000

/-- Where the reader of a text stands. -/
inductive TextState where
  /-- Between characters. -/
  | plain
  /-- After a backslash. -/
  | escape
  /-- Among the four digits of an escape, perhaps the second of a pair. -/
  | hex (leading : Option Nat) (digits : Bytes)
  /-- After the first half of a pair. -/
  | leading (n : Nat)
  /-- After the backslash of the second half of a pair. -/
  | leadingEscape (n : Nat)

/-- Reads to the closing quote; `done` holds the bytes so far, last first. -/
def scanText : TextState → (done : Bytes) → Bytes → Result Bytes
  | _, _, [] => failHere .endInText []
  | .plain, done, b :: s =>
    if b = quote then .ok (done.reverse, s)
    else if b = backslash then scanText .escape done s
    else if b < 32 then failHere .controlCharacter s
    else scanText .plain (b :: done) s
  | .escape, done, b :: s =>
    match shortEscape? b with
    | some c => scanText .plain (c :: done) s
    | none => if b = escapeU then scanText (.hex none []) done s else failHere .badEscape s
  | .leading n, done, b :: s =>
    if b = backslash then scanText (.leadingEscape n) done s else failHere .escapeCutShort s
  | .leadingEscape n, done, b :: s =>
    if b = escapeU then scanText (.hex (some n) []) done s else failHere .escapeCutShort s
  | .hex leading digits, done, b :: s =>
    let digits := digits ++ [b]
    if digits.length < 4 then scanText (.hex leading digits) done s
    else match hexNumber? digits with
      | none => failHere .badEscape s
      | some n =>
        match leading with
        | some first =>
          if isTrailing n then
            scanText .plain ((String.utf8EncodeChar (Char.ofNat (pairPoint first n))).reverse ++ done) s
          else failHere .loneSurrogate s
        | none =>
          if isTrailing n then failHere .loneSurrogate s
          else if isLeading n then scanText (.leading n) done s
          else scanText .plain ((String.utf8EncodeChar (Char.ofNat n)).reverse ++ done) s

/-- Reads a text after its opening quote. Bytes that are not UTF-8 are refused at a place counted back from the closing
quote, where an escape counts as the bytes it stands for. -/
def text (s : Bytes) : Result String :=
  (scanText .plain [] s).andThen fun bs rest =>
    match Utf8.decode? bs with
    | some t => .ok (t, rest)
    | none => failUnicode bs (quote :: rest)

end SecretsGateway.Json
