import SecretsGateway.Decimal.Binary64
import SecretsGateway.Decimal.Digits

/-!
# Shortest decimal text of a binary value

Of all decimals that round to the given value the one with the fewest digits is taken, and of those the nearest. A
decimal grid of step `10 ^ k` holds one of the two neighbours of the value, so each grid needs two trials only.
-/

namespace SecretsGateway.Binary64

/-- `mantissa * 2 ^ (exponent - 2)` in quarters: the value and the ends of what rounds to it, over one denominator. -/
structure Reach where
  low : Nat
  value : Nat
  high : Nat
  den : Nat
  closed : Bool

/-- The numbers that round to a value: half a step up, and half a step down or a quarter below a power of two. -/
def reach (x : Binary64) : Reach :=
  let down := if x.mantissa = leastMantissa ∧ leastExponent < x.exponent then 1 else 2
  let up := fun n => if x.exponent < 0 then n else n <<< x.exponent.natAbs
  ⟨up (4 * x.mantissa - down), up (4 * x.mantissa), up (4 * x.mantissa + 2),
    if x.exponent < 0 then 4 <<< x.exponent.natAbs else 4, x.mantissa % 2 == 0⟩

/-- The decimal `digits * 10 ^ power` lies within reach. -/
def Reach.holds (r : Reach) (digits : Nat) (power : Int) : Bool :=
  let left := digits * r.den * (if 0 ≤ power then Nat.pow 10 power.natAbs else 1)
  let scale := if 0 ≤ power then 1 else Nat.pow 10 power.natAbs
  if r.closed then r.low * scale ≤ left && left ≤ r.high * scale
  else r.low * scale < left && left < r.high * scale

/-- The number of decimal digits of a positive number. -/
def digitCount (n : Nat) : Nat := (Decimal.digits n).length

/-- The power of the first decimal digit of a positive ratio. -/
def leadingPower (num den : Nat) : Int :=
  if den ≤ num then (digitCount (num / den) : Int) - 1 else -(digitCount ((den - 1) / num) : Int)

/-- The trial on the grid of step `10 ^ power`: the neighbour within reach, the nearer of two. -/
def tryGrid (r : Reach) (power : Int) : Option Nat :=
  let num := r.value * (if 0 ≤ power then 1 else Nat.pow 10 power.natAbs)
  let den := r.den * (if 0 ≤ power then Nat.pow 10 power.natAbs else 1)
  let below := num / den
  match r.holds below power, r.holds (below + 1) power with
  | true, true => some (if 2 * (num % den) < den ∨ 2 * (num % den) = den ∧ below % 2 = 0 then below else below + 1)
  | true, false => some below
  | false, true => some (below + 1)
  | false, false => none

/-- The first hit on the grids with `count`, `count + 1`, … digits, for so many trials. -/
def search (r : Reach) (leading : Int) : (trials count : Nat) → Nat × Int
  | 0, count => (r.value / r.den, leading + 1 - count)
  | trials + 1, count =>
    let power := leading + 1 - count
    match tryGrid r power with
    | some digits => (digits, power)
    | none => search r leading trials (count + 1)

/-- The digits and the power of ten of a positive value; seventeen digits always suffice. -/
def shortest (x : Binary64) : Nat × Int :=
  let r := x.reach
  search r (leadingPower r.value r.den) 17 1

/-- A digit string less its trailing zeros, and how many those are. -/
def trimZeros (ds : Bytes) : Bytes × Nat :=
  let kept := (ds.reverse.dropWhile (· == 48)).reverse
  (kept, ds.length - kept.length)

/-- Digit bytes as text. -/
def digitText (ds : Bytes) : String := String.ofList (ds.map fun b => Char.ofNat b.toNat)

/-- The text of a value: positional with at least one place from `10⁻⁵` to below `10¹⁶`, else with an exponent. -/
def text (x : Binary64) : String :=
  if x.mantissa = 0 then "0.0"
  else
    let found := x.shortest
    let trimmed := trimZeros (Decimal.digits found.1)
    let ds := trimmed.1
    let power := found.2 + trimmed.2
    let leading := power + ds.length - 1
    let zeros := fun n => String.ofList (List.replicate n '0')
    if -5 ≤ leading ∧ leading < 16 then
      if 0 ≤ power then digitText ds ++ zeros power.natAbs ++ ".0"
      else if 0 ≤ leading then
        digitText (ds.take (leading.natAbs + 1)) ++ "." ++ digitText (ds.drop (leading.natAbs + 1))
      else "0." ++ zeros (leading.natAbs - 1) ++ digitText ds
    else
      let rest := ds.drop 1
      digitText (ds.take 1) ++ (if rest.isEmpty then "" else "." ++ digitText rest) ++
        (if leading < 0 then "e-" else "e+") ++ toString leading.natAbs

end SecretsGateway.Binary64
