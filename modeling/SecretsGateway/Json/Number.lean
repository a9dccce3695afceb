import SecretsGateway.Json.Reader

/-!
# Numbers

A number is an integer if it has neither a fraction nor an exponent and fits 64 bits (negative ones with a sign), and
`-0` is none. Any other number is a binary floating point value: its digits are kept as long as they fit 64 bits, those
dropped before the point only scale, and the result is scaled by a power of ten at the end.
-/

namespace SecretsGateway.Json

/-- A number of a document. -/
inductive Number where
  | int (i : Int)
  | float (negative : Bool) (magnitude : Binary64)

/-- What was found when a number stands in the wrong place. -/
def Number.found : Number → Found
  | .int i => .int i
  | .float negative magnitude => .float negative magnitude

/-- Appends digits to a number while it stays below `2 ^ 64`; also how many were appended. -/
def absorb : (significand count : Nat) → (digits : Bytes) → Nat × Nat
  | n, count, [] => (n, count)
  | n, count, d :: ds =>
    let next := n * 10 + Decimal.digitValue d
    if next < UInt64.size then absorb next (count + 1) ds else (n, count)

/-- The value `significand * 10 ^ exponent`; `rest` follows the number. -/
def floating (negative : Bool) (significand : Nat) (exponent : Int) (rest : Bytes) : Result Number :=
  match (Binary64.ofRatio significand 1).bind (·.scaleTen exponent) with
  | some x => .ok (.float negative x, rest)
  | none => failHere .numberTooLarge rest

/-- The first digits of `ds` that make a number no less than `2 ^ 31`, dropped; none if there are no such. -/
def beyondExponent : (n : Nat) → (ds : Bytes) → Option Bytes
  | _, [] => none
  | n, d :: ds =>
    let next := n * 10 + Decimal.digitValue d
    if next < 2147483648 then beyondExponent next ds else some ds

/-- Reads an exponent after its letter. One beyond 31 bits is too large, or makes the value zero. -/
def exponent (negative : Bool) (significand : Nat) (scale : Int) (s : Bytes) : Result Number :=
  let below := s.head? = some minus
  let unsigned := if s.head? = some plus ∨ below then s.drop 1 else s
  match unsigned with
  | [] => failHere .endForValue []
  | b :: after =>
    if !Decimal.isDigit b then failHere .badNumber after
    else
      let ds := unsigned.takeWhile Decimal.isDigit
      let rest := unsigned.dropWhile Decimal.isDigit
      match beyondExponent 0 ds with
      | some unread =>
        if significand ≠ 0 ∧ ¬ below then failHere .numberTooLarge (unread ++ rest)
        else .ok (.float negative ⟨0, Binary64.leastExponent⟩, rest)
      | none =>
        let e : Int := Decimal.value 0 ds
        floating negative significand (if below then scale - e else scale + e) rest

/-- The byte is the letter of an exponent. -/
def isExponentMark (b : UInt8) : Bool := b = 101 || b = 69

/-- Ends a number whose fraction is read, with an exponent if there is one. -/
def scaledNumber (negative : Bool) (significand : Nat) (scale : Int) (s : Bytes) : Result Number :=
  match s with
  | b :: rest =>
    if isExponentMark b then exponent negative significand scale rest else floating negative significand scale s
  | [] => floating negative significand scale s

/-- Reads a fraction after its point. -/
def fraction (negative : Bool) (significand : Nat) (scale : Int) (s : Bytes) : Result Number :=
  let ds := s.takeWhile Decimal.isDigit
  let rest := s.dropWhile Decimal.isDigit
  if ds.isEmpty then failNext (if rest.isEmpty then .endForValue else .badNumber) rest
  else
    let kept := absorb significand 0 ds
    scaledNumber negative kept.1 (scale - kept.2) rest

/-- An integer without fraction and exponent: a value of 64 bits, or a floating point one. -/
def whole (negative : Bool) (n : Nat) : Option Number :=
  if !negative then some (.int n)
  else if n = 0 ∨ 9223372036854775808 < n then (Binary64.ofRatio n 1).map (.float true)
  else some (.int (-n))

/-- Reads what follows the integer part of a number: `dropped` of its digits did not fit. -/
def afterInteger (negative : Bool) (significand dropped : Nat) (s : Bytes) : Result Number :=
  match s with
  | point :: rest => fraction negative significand dropped rest
  | b :: rest =>
    if isExponentMark b then exponent negative significand dropped rest
    else if dropped = 0 then
      match whole negative significand with
      | some n => .ok (n, s)
      | none => failHere .numberTooLarge s
    else floating negative significand dropped s
  | [] =>
    if dropped = 0 then
      match whole negative significand with
      | some n => .ok (n, s)
      | none => failHere .numberTooLarge s
    else floating negative significand dropped s

/-- Reads a number after its sign. -/
def number (negative : Bool) (s : Bytes) : Result Number :=
  match s with
  | [] => failHere .endForValue []
  | zero :: rest =>
    if (rest.head?.map Decimal.isDigit).getD false then failNext .badNumber rest
    else afterInteger negative 0 0 rest
  | b :: rest =>
    if !Decimal.isDigit b then failHere .badNumber rest
    else
      let ds := s.takeWhile Decimal.isDigit
      let kept := absorb 0 0 ds
      afterInteger negative kept.1 (ds.length - kept.2) (s.dropWhile Decimal.isDigit)

end SecretsGateway.Json
