import CertRotation.Number.Binary64

/-!
# Arithmetic of rates and delays

Tokens of a bucket and delays between attempts are computed in fractions.  The rules are written
once, over any type of numbers with the operations of `Scalar`: a program runs them on binary
fractions, a law is stated about exact ones.
-/

set_option autoImplicit false

namespace CertRotation

/-- Numbers in which rates and delays are computed. -/
class Scalar (τ : Type) where
  /-- The number nearest to a whole number. -/
  ofNat : Nat → τ
  add : τ → τ → τ
  sub : τ → τ → τ
  mul : τ → τ → τ
  div : τ → τ → τ
  /-- The smaller of two numbers; if one of them is no number, the other. -/
  min : τ → τ → τ
  /-- Whether the first number is at most the second. -/
  le : τ → τ → Bool
  /-- The number without its fraction, as a count of at most 64 binary digits; zero if it is
  negative or no number. -/
  floor : τ → Nat

namespace Scalar

variable {τ : Type} [Scalar τ]

/-- `base` to the power `exponent` as `acc * base ^ exponent`, by squaring; at most `fuel` squarings
are needed. -/
def powerWithin : Nat → τ → τ → Nat → τ
  | 0, acc, _, _ => acc
  | fuel + 1, acc, base, exponent =>
    let acc := if exponent % 2 = 1 then mul acc base else acc
    if exponent / 2 = 0 then acc else powerWithin fuel acc (mul base base) (exponent / 2)

/-- `base` to a whole power by repeated squaring; a negative power is the reciprocal of the positive
one. -/
def power (base : τ) (exponent : Int) : τ :=
  let positive := powerWithin (exponent.natAbs.log2 + 1) (ofNat 1) base exponent.natAbs
  if exponent < 0 then div (ofNat 1) positive else positive

end Scalar

instance : Scalar Float where
  ofNat := Binary64.ofNat
  add := (· + ·)
  sub := (· - ·)
  mul := (· * ·)
  div := (· / ·)
  min x y := if x.isNaN then y else if y.isNaN then x else if x ≤ y then x else y
  le x y := x ≤ y
  floor x := x.toUInt64.toNat

end CertRotation
