/-!
# RSA keys

A private key is a modulus that is the product of two primes, two exponents, and numbers derived
from them that make its use faster.  `RsaKey.isSound` says which keys are accepted: the sizes are
within bounds, and the parts belong together as far as that can be told without factoring anything.
-/

set_option autoImplicit false

namespace CertRotation

/-- The parts of a private key. -/
structure RsaKey where
  modulus : Nat
  publicExponent : Nat
  privateExponent : Nat
  firstPrime : Nat
  secondPrime : Nat
  /-- The private exponent for the first prime. -/
  firstExponent : Nat
  /-- The private exponent for the second prime. -/
  secondExponent : Nat
  /-- The inverse of the second prime modulo the first. -/
  coefficient : Nat

namespace RsaKey

/-- The number of binary digits. -/
def bits (n : Nat) : Nat := if n = 0 then 0 else n.log2 + 1

/-- Whether the public part is within bounds.  A modulus that fills the bytes of 2048 bits is as
good as one of 2048 bits. -/
def hasSoundPublicPart (k : RsaKey) : Bool :=
  2048 ≤ (bits k.modulus + 7) / 8 * 8 && bits k.modulus ≤ 8192 && k.modulus % 2 == 1
    && 65537 ≤ k.publicExponent && k.publicExponent < Nat.pow 2 33 && k.publicExponent % 2 == 1

/-- Whether a prime has half the size of the modulus. -/
def hasSoundPrime (k : RsaKey) (prime : Nat) : Bool :=
  bits prime == (bits k.modulus + 1) / 2 && bits prime % 512 == 0 && prime % 2 == 1

/-- Whether an exponent may belong to a prime. -/
def isSoundExponent (prime exponent : Nat) : Bool := exponent < prime && exponent % 2 == 1

/-- Whether the parts of a key belong together. -/
def isSound (k : RsaKey) : Bool :=
  k.hasSoundPublicPart && k.hasSoundPrime k.firstPrime && k.hasSoundPrime k.secondPrime
    && k.firstPrime * k.secondPrime % k.modulus == 0
    && (bits k.modulus + 1) / 2 < bits k.privateExponent && k.privateExponent < k.modulus
    && k.privateExponent % 2 == 1
    && isSoundExponent k.firstPrime k.firstExponent
    && isSoundExponent k.secondPrime k.secondExponent
    && k.coefficient < k.firstPrime && k.coefficient * k.secondPrime % k.firstPrime == 1

end RsaKey
end CertRotation
