import CertRotation.Time

/-!
# The token bucket

A bucket holds up to `burst` tokens and starts full.  Asking takes a token if there is a whole one;
between two questions the bucket earns a token per interval.  A bucket for no tokens grants nothing,
and one that refills at once grants everything.
-/

set_option autoImplicit false

namespace CertRotation

/-- A source of permissions that may depend on when it was asked before. -/
class Limiter (L : Type) where
  acquire : L → Instant → Bool × L

/-- A bucket of tokens. -/
structure Bucket (τ : Type) where
  interval : Duration
  burst : Nat
  tokens : τ
  refilledAt : Instant

namespace Bucket

variable {τ : Type} [Scalar τ]

/-- A full bucket. -/
def new (interval : Duration) (burst : Nat) (now : Instant) : Bucket τ :=
  ⟨interval, burst, Scalar.ofNat burst, now⟩

/-- The bucket with what it has earned since it was last asked. -/
def refill (b : Bucket τ) (now : Instant) : Bucket τ :=
  let earned := Scalar.div (Duration.inSeconds (now - b.refilledAt)) (Duration.inSeconds b.interval)
  { b with
    tokens := Scalar.min (Scalar.add b.tokens earned) (Scalar.ofNat b.burst)
    refilledAt := now }

/-- Takes a token if there is one. -/
def tryAcquire (b : Bucket τ) (now : Instant) : Bool × Bucket τ :=
  if b.burst = 0 then (false, b)
  else if b.interval = 0 then (true, b)
  else
    let b := b.refill now
    if Scalar.le (Scalar.ofNat 1) b.tokens then
      (true, { b with tokens := Scalar.sub b.tokens (Scalar.ofNat 1) })
    else (false, b)

/-- The answers to `n` questions at one instant. -/
def tryAcquireTimes (b : Bucket τ) (now : Instant) : Nat → List Bool × Bucket τ
  | 0 => ([], b)
  | n + 1 =>
    let (granted, b) := b.tryAcquire now
    let (rest, b) := tryAcquireTimes b now n
    (granted :: rest, b)

end Bucket

instance {τ : Type} [Scalar τ] : Limiter (Bucket τ) where
  acquire := Bucket.tryAcquire

end CertRotation
