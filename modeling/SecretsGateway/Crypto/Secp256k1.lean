/-!
# The curve `y² = x³ + 7` over a 256-bit prime field

Field and group arithmetic on natural numbers below `prime`. Sums are taken in weighted coordinates `(x / z², y / z³)`,
which need no division; `Weighted.toPoint` divides once at the end. `Point.lift?` finds the point over a given first
coordinate, and a multiple is taken by doubling along the binary digits of the factor.
-/

namespace SecretsGateway.Secp256k1

/-- The size of the field, `2 ^ 256 - 2 ^ 32 - 977`. -/
def prime : Nat := 0xfffffffffffffffffffffffffffffffffffffffffffffffffffffffefffffc2f

/-- The number of points, `infinity` included. -/
def order : Nat := 0xfffffffffffffffffffffffffffffffebaaedce6af48a03bbfd25e8cd0364141

/-- The 256 binary digits of a number, highest first. -/
def bits (k : Nat) : List Bool := (List.range 256).reverse.map (Nat.testBit k)

/-- A power modulo `m`, for exponents below `2 ^ 256`. -/
def powMod (m base exponent : Nat) : Nat :=
  (bits exponent).foldl (fun acc bit => if bit then acc * acc % m * base % m else acc * acc % m) 1

/-- The inverse modulo a prime `m`; zero has the inverse zero. -/
def inverseMod (m a : Nat) : Nat := powMod m a (m - 2)

/-- The difference of two numbers below `prime`. -/
def sub (a b : Nat) : Nat := (a + prime - b) % prime

/-- A point of the curve. -/
inductive Point where
  | infinity
  | affine (x y : Nat)
  deriving DecidableEq, Repr

/-- The point all others are multiples of. -/
def generator : Point :=
  .affine 0x79be667ef9dcbbac55a06295ce870b07029bfcdb2dce28d959f2815b16f81798
    0x483ada7726a3c4655da4fbfc0e1108a8fd17b448a68554199c47d08ffb10d4b8

/-- A point `(x / z², y / z³)`; it lies at infinity if `z` is zero. -/
structure Weighted where
  x : Nat
  y : Nat
  z : Nat

namespace Weighted

/-- The weighted form of the point at infinity. -/
def infinity : Weighted := ⟨1, 1, 0⟩

/-- A point with weight one. -/
def ofPoint : Point → Weighted
  | .infinity => infinity
  | .affine x y => ⟨x, y, 1⟩

/-- Removes the weight. -/
def toPoint (a : Weighted) : Point :=
  if a.z = 0 then .infinity
  else
    let w := inverseMod prime a.z
    let w2 := w * w % prime
    .affine (a.x * w2 % prime) (a.y * (w2 * w % prime) % prime)

/-- Twice a point. -/
def double (a : Weighted) : Weighted :=
  let y2 := a.y * a.y % prime
  let s := 4 * a.x * y2 % prime
  let m := 3 * a.x * a.x % prime
  let x := sub (m * m % prime) (2 * s % prime)
  ⟨x, sub (m * sub s x % prime) (8 * y2 * y2 % prime), 2 * a.y * a.z % prime⟩

/-- The sum with a point of weight one. -/
def add (a : Weighted) : Point → Weighted
  | .infinity => a
  | .affine x y =>
    if a.z = 0 then ⟨x, y, 1⟩
    else
      let z2 := a.z * a.z % prime
      let h := sub (x * z2 % prime) a.x
      let r := sub (y * (z2 * a.z % prime) % prime) a.y
      if h = 0 then if r = 0 then double a else infinity
      else
        let h2 := h * h % prime
        let h3 := h2 * h % prime
        let u := a.x * h2 % prime
        let x' := sub (r * r % prime) ((h3 + 2 * u) % prime)
        ⟨x', sub (r * sub u x' % prime) (a.y * h3 % prime), h * a.z % prime⟩

end Weighted

namespace Point

/-- The sum of two points. -/
def add (a b : Point) : Point := ((Weighted.ofPoint a).add b).toPoint

/-- The `k`-fold sum of a point, for `k` below `2 ^ 256`. -/
def mul (k : Nat) (a : Point) : Point :=
  ((bits k).foldl (fun acc bit => if bit then acc.double.add a else acc.double) Weighted.infinity).toPoint

/-- The point with the given first coordinate whose second coordinate is odd or even as asked. -/
def lift? (x : Nat) (odd : Bool) : Option Point :=
  let square := (x * x % prime * x + 7) % prime
  let root := powMod prime square ((prime + 1) / 4)
  if root * root % prime ≠ square then none
  else if (root % 2 == 1) = odd then some (.affine x root)
  else some (.affine x (prime - root))

end Point

end SecretsGateway.Secp256k1
