import CertRotation.Crypto.Modular
import CertRotation.Number.BigEndian

/-!
# Curves of the form y² = x³ + ax + b

Points are kept as three numbers, so that adding them takes no division: `(x, y, z)` stands for the
point with the coordinates `x / z²` and `y / z³`, and `z = 0` for the point at infinity.

`ShortCurve.scale` is the sum of a point with itself, `ShortCurve.publicKey?` the written form of
the point that belongs to a private number.
-/

set_option autoImplicit false

namespace CertRotation

/-- A curve over the numbers below a prime, and the group that its generator spans. -/
structure ShortCurve where
  prime : Nat
  /-- The coefficient of `x`. -/
  linear : Nat
  /-- How many points the generator spans. -/
  order : Nat
  generatorX : Nat
  generatorY : Nat
  /-- Bytes of a coordinate. -/
  width : Nat

namespace ShortCurve

/-- A point of a curve, in coordinates without division. -/
structure Point where
  x : Nat
  y : Nat
  z : Nat

/-- The point at infinity. -/
def infinity : Point := ⟨1, 1, 0⟩

/-- The generator. -/
def generator (c : ShortCurve) : Point := ⟨c.generatorX, c.generatorY, 1⟩

/-- A point added to itself: the tangent of the curve. -/
def double (c : ShortCurve) (p : Point) : Point :=
  if p.z = 0 ∨ p.y = 0 then infinity
  else
    let m := c.prime
    let yy := p.y * p.y % m
    let s := 4 * p.x * yy % m
    let zz := p.z * p.z % m
    let slope := (3 * p.x * p.x + c.linear * (zz * zz % m)) % m
    let x := Modular.sub m (slope * slope) (2 * s)
    ⟨x, Modular.sub m (slope * Modular.sub m s x) (8 * yy * yy), 2 * p.y * p.z % m⟩

/-- The sum of two points: the line through them, or the tangent if they are the same. -/
def add (c : ShortCurve) (p q : Point) : Point :=
  if p.z = 0 then q
  else if q.z = 0 then p
  else
    let m := c.prime
    let pzz := p.z * p.z % m
    let qzz := q.z * q.z % m
    let px := p.x * qzz % m
    let qx := q.x * pzz % m
    let py := p.y * (qzz * q.z % m) % m
    let qy := q.y * (pzz * p.z % m) % m
    if px = qx then (if py = qy then c.double p else infinity)
    else
      let h := Modular.sub m qx px
      let r := Modular.sub m qy py
      let hh := h * h % m
      let hhh := h * hh % m
      let v := px * hh % m
      let x := Modular.sub m (r * r) (hhh + 2 * v)
      ⟨x, Modular.sub m (r * Modular.sub m v x) (py * hhh), h * p.z * q.z % m⟩

/-- The sum of `k` copies of a point: half as many copies of its double, and one more if `k` is
odd. -/
def scale (c : ShortCurve) (k : Nat) (p : Point) : Point :=
  if h : k = 0 then infinity
  else
    let rest := c.scale (k / 2) (c.double p)
    if k % 2 = 1 then c.add p rest else rest
  termination_by k
  decreasing_by omega

/-- The coordinates of a point, which the point at infinity has not. -/
def coordinates? (c : ShortCurve) (p : Point) : Option (Nat × Nat) :=
  if p.z = 0 then none
  else
    let inverse := Modular.inverse c.prime p.z
    let square := inverse * inverse % c.prime
    some (p.x * square % c.prime, p.y * (square * inverse % c.prime) % c.prime)

/-- The public key of a private number, written without compression: the byte four and both
coordinates. -/
def publicKey? (c : ShortCurve) (secret : Nat) : Option Bytes :=
  (c.coordinates? (c.scale secret c.generator)).map fun (x, y) =>
    4 :: (BigEndian.write c.width x ++ BigEndian.write c.width y)

/-- The curve P-256. -/
def p256 : ShortCurve where
  prime := 0xffffffff00000001000000000000000000000000ffffffffffffffffffffffff
  linear := 0xffffffff00000001000000000000000000000000fffffffffffffffffffffffc
  order := 0xffffffff00000000ffffffffffffffffbce6faada7179e84f3b9cac2fc632551
  generatorX := 0x6b17d1f2e12c4247f8bce6e563a440f277037d812deb33a0f4a13945d898c296
  generatorY := 0x4fe342e2fe1a7f9b8ee7eb4a7c0f9e162bce33576b315ececbb6406837bf51f5
  width := 32

/-- The curve P-384. -/
def p384 : ShortCurve where
  prime :=
    0xfffffffffffffffffffffffffffffffffffffffffffffffffffffffffffffffeffffffff0000000000000000ffffffff
  linear :=
    0xfffffffffffffffffffffffffffffffffffffffffffffffffffffffffffffffeffffffff0000000000000000fffffffc
  order :=
    0xffffffffffffffffffffffffffffffffffffffffffffffffc7634d81f4372ddf581a0db248b0a77aecec196accc52973
  generatorX :=
    0xaa87ca22be8b05378eb1c71ef320ad746e1d3b628ba79b9859f741e082542a385502f25dbf55296c3a545e3872760ab7
  generatorY :=
    0x3617de4a96262c6f5d9e98bf9292dc29f8f41dbd289a147ce9da3113b5f0b8c00a60b1ce1d7e819d7a431d7c90ea0e5f
  width := 48

end ShortCurve
end CertRotation
