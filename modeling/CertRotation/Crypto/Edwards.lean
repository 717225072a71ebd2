import CertRotation.Crypto.Modular
import CertRotation.Crypto.Sha512

/-!
# The curve of Ed25519

The curve is `-x² + y² = 1 + dx²y²` over the numbers below `2²⁵⁵ - 19`.  A point is kept as
`(x, y, z, t)` for the coordinates `x / z` and `y / z`, with `t = xy / z`; one formula adds any two
points.

`Edwards.publicKey` is the public key that belongs to a seed.
-/

set_option autoImplicit false

namespace CertRotation
namespace Edwards

/-- The prime of the field. -/
def prime : Nat := Nat.pow 2 255 - 19

/-- The coefficient `d`. -/
def coefficient : Nat := prime - 121665 * Modular.inverse prime 121666 % prime

/-- A point of the curve, in coordinates without division. -/
structure Point where
  x : Nat
  y : Nat
  z : Nat
  t : Nat

/-- The neutral point. -/
def neutral : Point := ⟨0, 1, 1, 0⟩

/-- The base point, whose second coordinate is four fifths. -/
def base : Point :=
  let x := 0x216936d3cd6e53fec0a4e231fdd6dc5c692cc7609525a7b2c9562d608f25d51a
  let y := 0x6666666666666666666666666666666666666666666666666666666666666658
  ⟨x, y, 1, x * y % prime⟩

/-- The sum of two points. -/
def add (p q : Point) : Point :=
  let a := Modular.sub prime p.y p.x * Modular.sub prime q.y q.x % prime
  let b := (p.y + p.x) * (q.y + q.x) % prime
  let c := 2 * coefficient * p.t * q.t % prime
  let d := 2 * p.z * q.z % prime
  let e := Modular.sub prime b a
  let f := Modular.sub prime d c
  let g := d + c
  let h := b + a
  ⟨e * f % prime, g * h % prime, f * g % prime, e * h % prime⟩

/-- The sum of `k` copies of a point. -/
def scale (k : Nat) (p : Point) : Point :=
  if h : k = 0 then neutral
  else
    let rest := scale (k / 2) (add p p)
    if k % 2 = 1 then add p rest else rest
  termination_by k
  decreasing_by omega

/-- The written form of a point: its second coordinate, the least significant byte first, with the
parity of the first coordinate in the highest bit. -/
def encode (p : Point) : Bytes :=
  let inverse := Modular.inverse prime p.z
  let x := p.x * inverse % prime
  let y := p.y * inverse % prime
  (BigEndian.write 32 (y + x % 2 * Nat.pow 2 255)).reverse

/-- The private number of a seed: half of its digest, made a multiple of eight between `2²⁵⁴` and
`2²⁵⁵`. -/
def secret (seed : Bytes) : Nat :=
  let n := BigEndian.read ((Sha512.digest seed).take 32).reverse
  n / 8 * 8 % Nat.pow 2 254 + Nat.pow 2 254

/-- The public key of a seed. -/
def publicKey (seed : Bytes) : Bytes := encode (scale (secret seed) base)

end Edwards
end CertRotation
