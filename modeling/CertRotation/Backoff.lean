import CertRotation.Retryable
import CertRotation.Time

/-!
# Trying again

`Backoff` says how long to wait before the next attempt: each wait is longer than the one before by
a factor, up to a longest wait.  Where many programs may fail at once, a random part of up to a
quarter is added, so that they do not all come back at the same time.

`RetryPolicy` is what the loop needs to know, a number of retries and the waits between them.
`RetryPolicy.execute` makes the first attempt at once and goes on until an attempt succeeds, fails
for good, or was the last one.
-/

set_option autoImplicit false

namespace CertRotation

/-! ## Waits -/

/-- How the waits between attempts grow. -/
structure Backoff (τ : Type) where
  maxRetries : Nat
  initialDelay : Duration
  maxDelay : Duration
  multiplier : τ
  jitter : Bool

namespace Backoff

variable {τ : Type} [Scalar τ]

/-- Three retries after a tenth of a second, twice and four times as long, with a random part. -/
def usual : Backoff τ := ⟨3, Duration.ofMillis 100, Duration.ofMillis 10000, Scalar.ofNat 2, true⟩

/-- The power of the multiplier for an attempt.  Attempts are counted in 32 binary digits and their
count is read with a sign. -/
def exponent (attempt : Nat) : Int := Int.bmod attempt UInt32.size

/-- The wait after an attempt in milliseconds, with its fraction and without a random part. -/
def plainMillis (b : Backoff τ) (attempt : Nat) : τ :=
  Scalar.min
    (Scalar.mul (Scalar.ofNat (Duration.millis b.initialDelay))
      (Scalar.power b.multiplier (exponent attempt)))
    (Scalar.ofNat (Duration.millis b.maxDelay))

/-- The wait after an attempt, the first of which has number zero.  The random part depends on
`chance`, a number between zero and one. -/
def delay (b : Backoff τ) (chance : τ) (attempt : Nat) : Duration :=
  let plain := b.plainMillis attempt
  let quarter := Scalar.div (Scalar.ofNat 1) (Scalar.ofNat 4)
  let factor := Scalar.add (Scalar.ofNat 1) (Scalar.mul chance quarter)
  Duration.ofMillis (Scalar.floor (if b.jitter then Scalar.mul plain factor else plain))

end Backoff

/-! ## Attempts -/

/-- How often an operation is tried again, and the wait after each failed attempt. -/
structure RetryPolicy where
  maxRetries : Nat
  delay : Nat → Duration

/-- The policy of a backoff, whose random parts are drawn from `chances`. -/
def Backoff.policy {τ : Type} [Scalar τ] (b : Backoff τ) (chances : Nat → τ) : RetryPolicy :=
  ⟨b.maxRetries, fun attempt => b.delay (chances attempt) attempt⟩

namespace RetryPolicy

variable {σ ε α : Type} [Retryable ε]

/-- Whether an attempt that failed with `e` is followed by another. -/
def shouldRetry (p : RetryPolicy) (e : ε) (attempt : Nat) : Bool :=
  attempt < p.maxRetries && Retryable.isRetryable e

/-- How trying an operation went: its last outcome, the instants of its calls, the instant at which
all was over, and what the operation has become. -/
structure Run (σ ε α : Type) where
  outcome : Except ε α
  calls : List Instant
  finished : Instant
  state : σ

/-- Makes attempt number `attempt` and those after it; `left` retries are left. -/
def executeFrom (p : RetryPolicy) (operation : σ → Instant → Except ε α × σ) :
    Nat → Nat → Instant → σ → Run σ ε α
  | left, attempt, now, state =>
    match operation state now, left with
    | (.error e, state), left + 1 =>
      if p.shouldRetry e attempt then
        let rest :=
          executeFrom p operation left (attempt + 1) (Instant.deadline now (p.delay attempt)) state
        { rest with calls := now :: rest.calls }
      else ⟨.error e, [now], now, state⟩
    | (outcome, state), _ => ⟨outcome, [now], now, state⟩

/-- Tries an operation, which may keep a state, from `now` on. -/
def execute (p : RetryPolicy) (operation : σ → Instant → Except ε α × σ) (now : Instant)
    (state : σ) : Run σ ε α :=
  p.executeFrom operation p.maxRetries 0 now state

end RetryPolicy

end CertRotation
