import CertRotation.Number.Scalar

/-!
# Time

Lengths of time and instants are counted in nanoseconds, an instant from the start of the clock.
Timers are coarser: a timer goes off at a whole millisecond, the first one that is not before the
end of its delay (`Instant.deadline`).
-/

set_option autoImplicit false

namespace CertRotation

/-- A length of time in nanoseconds. -/
abbrev Duration := Nat

/-- An instant, in nanoseconds since the clock was started. -/
abbrev Instant := Nat

/-- Nanoseconds in a second. -/
def nanosPerSecond : Nat := 1000000000

/-- Nanoseconds in a millisecond. -/
def nanosPerMilli : Nat := 1000000

namespace Duration

/-- `n` milliseconds. -/
def ofMillis (n : Nat) : Duration := n * nanosPerMilli

/-- `seconds` and `nanos`. -/
def ofParts (seconds nanos : Nat) : Duration := seconds * nanosPerSecond + nanos

/-- The whole seconds. -/
def seconds (d : Duration) : Nat := d / nanosPerSecond

/-- The nanoseconds after the whole seconds. -/
def subsecond (d : Duration) : Nat := d % nanosPerSecond

/-- The whole milliseconds. -/
def millis (d : Duration) : Nat := d / nanosPerMilli

/-- The number that settings files write for a duration: its milliseconds in 64 binary digits. -/
def written (d : Duration) : Nat := d.millis % UInt64.size

/-- A duration in seconds. -/
def inSeconds {τ : Type} [Scalar τ] (d : Duration) : τ :=
  Scalar.add (Scalar.ofNat (Duration.seconds d))
    (Scalar.div (Scalar.ofNat (Duration.subsecond d)) (Scalar.ofNat nanosPerSecond))

/-- A fraction of at most `width` decimal digits, without zeros at the end. -/
def fractionDigits (width fraction : Nat) : List Char :=
  let digits := Nat.toDigits 10 fraction
  let padded := List.replicate (width - digits.length) '0' ++ digits
  (padded.reverse.dropWhile (· = '0')).reverse

/-- `whole` and the fraction after it, with a unit. -/
def shownIn (whole fraction width : Nat) (unit : String) : String :=
  let digits := if fraction = 0 then [] else '.' :: fractionDigits width fraction
  toString whole ++ String.ofList digits ++ unit

/-- A duration in the largest unit of which it holds one. -/
def shown (d : Duration) : String :=
  if nanosPerSecond ≤ d then shownIn (Duration.seconds d) (Duration.subsecond d) 9 "s"
  else if nanosPerMilli ≤ d then shownIn (d / nanosPerMilli) (d % nanosPerMilli) 6 "ms"
  else if 1000 ≤ d then shownIn (d / 1000) (d % 1000) 3 "µs"
  else shownIn d 0 1 "ns"

end Duration

namespace Instant

/-- The whole milliseconds since the clock was started. -/
def millis (t : Instant) : Nat := t / nanosPerMilli

/-- When a timer set at `now` for `delay` goes off. -/
def deadline (now : Instant) (delay : Duration) : Instant :=
  (now + delay + (nanosPerMilli - 1)) / nanosPerMilli * nanosPerMilli

theorem le_deadline (now : Instant) (delay : Duration) : now ≤ deadline now delay := by
  have hround : ∀ t : Nat, t ≤ (t + 999999) / 1000000 * 1000000 := by omega
  exact Nat.le_trans (Nat.le_add_right now delay) (hround _)

theorem dvd_deadline (now : Instant) (delay : Duration) : nanosPerMilli ∣ deadline now delay :=
  Nat.dvd_mul_left _ _

/-- Between whole milliseconds a timer is exact. -/
theorem deadline_eq {now : Instant} {delay : Duration} (hnow : nanosPerMilli ∣ now)
    (hdelay : nanosPerMilli ∣ delay) : deadline now delay = now + delay := by
  obtain ⟨a, rfl⟩ := hnow
  obtain ⟨b, rfl⟩ := hdelay
  rw [deadline, ← Nat.mul_add, Nat.mul_add_div (by decide)]
  exact Nat.mul_comm _ _

/-- Two timers, one after the other, are one timer for the whole time, if the second is set for
whole milliseconds. -/
theorem deadline_deadline (now : Instant) (delay : Duration) {more : Duration}
    (hmore : nanosPerMilli ∣ more) :
    deadline (deadline now delay) more = deadline now (delay + more) := by
  rw [deadline_eq (dvd_deadline now delay) hmore]
  obtain ⟨n, rfl⟩ := hmore
  have hround : now + (delay + nanosPerMilli * n) + (nanosPerMilli - 1) =
      nanosPerMilli * n + (now + delay + (nanosPerMilli - 1)) := by
    rw [← Nat.add_assoc, Nat.add_right_comm, Nat.add_comm]
  rw [deadline, deadline, hround, Nat.mul_add_div (by decide), Nat.add_mul, Nat.mul_comm n,
    Nat.add_comm]

end Instant

end CertRotation
