/-!
# Arithmetic modulo a prime

The curves compute with natural numbers below a prime.  Every operation takes its operands as they
come and gives a number below the modulus.
-/

set_option autoImplicit false

namespace CertRotation
namespace Modular

/-- The sum modulo `p`. -/
def add (p a b : Nat) : Nat := (a + b) % p

/-- The difference modulo `p`. -/
def sub (p a b : Nat) : Nat := (a + (p - b % p)) % p

/-- The product modulo `p`. -/
def mul (p a b : Nat) : Nat := a * b % p

/-- The power of `a` to `e` modulo `p`: the exponent is halved while the base is squared. -/
def power (p a e : Nat) : Nat :=
  if h : e = 0 then 1 % p
  else
    let rest := power p (a * a % p) (e / 2)
    if e % 2 = 1 then a * rest % p else rest
  termination_by e
  decreasing_by omega

/-- The inverse of `a` modulo a prime: its power to `p - 2`, because its power to `p - 1` is one. -/
def inverse (p a : Nat) : Nat := power p a (p - 2)

end Modular
end CertRotation
