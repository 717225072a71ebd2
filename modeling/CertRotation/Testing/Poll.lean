import CertRotation.Time

/-!
# Waiting for something to become true

`Poll.eventually` asks a check again and again, at fixed distances, until it holds or a time limit
has passed.  The check is asked before the time is looked at, so it is asked once at least, and a
negative answer is never given without a failed check at the limit or after it.
-/

set_option autoImplicit false

namespace CertRotation.Poll

/-- The time between two checks. -/
def interval : Duration := Duration.ofMillis 20

/-- How waiting ended: the answer, how often the check was asked, how long it took, and what the
check has become. -/
structure Answer (σ : Type) where
  held : Bool
  calls : Nat
  elapsed : Duration
  state : σ

/-- Asks `check`, which may keep a state, at most `fuel` times more. -/
def within {σ : Type} (check : σ → Duration → Bool × σ) (timeout : Duration) :
    Nat → Nat → Duration → σ → Answer σ
  | 0, calls, elapsed, state => ⟨false, calls, elapsed, state⟩
  | fuel + 1, calls, elapsed, state =>
    let (held, state) := check state elapsed
    if held then ⟨true, calls + 1, elapsed, state⟩
    else if timeout ≤ elapsed then ⟨false, calls + 1, elapsed, state⟩
    else within check timeout fuel (calls + 1) (Instant.deadline elapsed interval) state

/-- The number of checks after which the time limit has passed. -/
def maxCalls (timeout : Duration) : Nat := (timeout + (interval - 1)) / interval + 1

/-- Asks `check` at once and then once per interval until it holds or `timeout` has passed. -/
def eventually {σ : Type} (check : σ → Duration → Bool × σ) (timeout : Duration) (state : σ) :
    Answer σ :=
  within check timeout (maxCalls timeout) 0 0 state

end CertRotation.Poll
