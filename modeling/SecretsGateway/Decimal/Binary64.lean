/-!
# Binary floating point with 53 bits

Finite non-negative values `mantissa * 2 ^ exponent` of the 64-bit format, and the rounding of a ratio to the nearest of
them, ties to the even mantissa. Every operation rounds its exact result once.
-/

namespace SecretsGateway

/-- A finite value `mantissa * 2 ^ exponent`; below `2 ^ 52` a mantissa has the least exponent. -/
structure Binary64 where
  mantissa : Nat
  exponent : Int
  deriving DecidableEq, Repr

namespace Binary64

def leastExponent : Int := -1074

def greatestExponent : Int := 971

/-- The least mantissa above the least exponent, `2 ^ 52`. -/
def leastMantissa : Nat := 4503599627370496

/-- `num / den / 2 ^ exponent` as a ratio. -/
def scaled (num den : Nat) (exponent : Int) : Nat × Nat :=
  if exponent < 0 then (num <<< exponent.natAbs, den) else (num, den <<< exponent.natAbs)

/-- The exponent at which a positive ratio has a mantissa of 53 bits, or else the least one. -/
def exponentOf (num den : Nat) : Int :=
  let guess : Int := (Nat.log2 num : Int) - (Nat.log2 den : Int) - 52
  let at' := scaled num den guess
  max leastExponent (if at'.1 / at'.2 < leastMantissa then guess - 1 else guess)

/-- The integer nearest to `num / den`, ties to the even one. -/
def roundEven (num den : Nat) : Nat :=
  let q := num / den
  let twice := 2 * (num % den)
  if twice < den then q else if den < twice then q + 1 else q + q % 2

/-- The value nearest to `num / den`; none if that lies beyond the largest one. -/
def ofRatio (num den : Nat) : Option Binary64 :=
  if num = 0 then some ⟨0, leastExponent⟩
  else
    let e := exponentOf num den
    let r := scaled num den e
    let q := roundEven r.1 r.2
    let x : Binary64 := if q = 2 * leastMantissa then ⟨leastMantissa, e + 1⟩ else ⟨q, e⟩
    if greatestExponent < x.exponent then none else some x

/-- The value as an exact ratio. -/
def ratio (x : Binary64) : Nat × Nat :=
  if x.exponent < 0 then (x.mantissa, 1 <<< x.exponent.natAbs) else (x.mantissa <<< x.exponent.natAbs, 1)

def mul (x y : Binary64) : Option Binary64 := ofRatio (x.ratio.1 * y.ratio.1) (x.ratio.2 * y.ratio.2)

/-- The rounded quotient by a value that is not zero. -/
def div (x y : Binary64) : Option Binary64 := ofRatio (x.ratio.1 * y.ratio.2) (x.ratio.2 * y.ratio.1)

/-- The rounded power of ten. -/
def tenPower (n : Nat) : Option Binary64 := ofRatio (Nat.pow 10 n) 1

/-- Scales by a power of ten of at most 308: a rounded product or quotient. -/
def scaleOnce (x : Binary64) (exponent : Int) : Option Binary64 :=
  (tenPower exponent.natAbs).bind (if 0 ≤ exponent then x.mul else x.div)

/-- Scales by a power of ten. A small exponent takes quotients by `10 ^ 308` first; a large one has no result. -/
def scaleTen (x : Binary64) (exponent : Int) : Option Binary64 :=
  if -308 ≤ exponent ∧ exponent ≤ 308 then scaleOnce x exponent
  else if x.mantissa = 0 then some x
  else if 0 ≤ exponent then none
  else (scaleOnce x (-308)).bind fun y => scaleTen y (exponent + 308)
termination_by exponent.natAbs

end Binary64

end SecretsGateway
