import CertRotation.Watch.Bucket
import Mathlib.Algebra.Order.Field.Rat
import Mathlib.Tactic.FieldSimp

/-!
# Exact numbers

In exact fractions a duration is what it is in seconds, and a bucket earns one token per interval
and not a little more or less.

* the instance of `Scalar` for fractions;
* `Duration.inSeconds_eq` — a duration in seconds;
* `Bucket.filled`, `Bucket.tryAcquire_eq` — the tokens that there are to take from, and the answer
  that a bucket gives;
* `Bucket.exists_tryAcquire_eq` — a bucket that grants nothing has kept all that it earned.
-/

set_option autoImplicit false

namespace CertRotation

instance : Scalar ℚ where
  ofNat n := n
  add := (· + ·)
  sub := (· - ·)
  mul := (· * ·)
  div := (· / ·)
  min := min
  le x y := x ≤ y
  floor x := min x.floor.toNat (UInt64.size - 1)

theorem Duration.inSeconds_eq (d : Duration) : (d.inSeconds : ℚ) = d / nanosPerSecond := by
  have hsplit : d.seconds * nanosPerSecond + d.subsecond = d := Nat.div_add_mod' d nanosPerSecond
  have hcast : (d.seconds * nanosPerSecond + d.subsecond : ℚ) = d := by exact_mod_cast hsplit
  have hpos : (nanosPerSecond : ℚ) ≠ 0 := by norm_num [nanosPerSecond]
  calc (d.inSeconds : ℚ)
      = d.seconds + d.subsecond / nanosPerSecond := rfl
    _ = (d.seconds * nanosPerSecond + d.subsecond) / nanosPerSecond := by field_simp
    _ = d / nanosPerSecond := by rw [hcast]

namespace Bucket

variable {b : Bucket ℚ} {now : Instant}

/-- The tokens in a bucket with what it has earned since it was last asked. -/
def filled (b : Bucket ℚ) (now : Instant) : ℚ :=
  min (b.tokens + (now - b.refilledAt : ℕ) / b.interval) b.burst

theorem refill_eq : b.refill now = { b with tokens := b.filled now, refilledAt := now } := by
  have hearned : (Duration.inSeconds (now - b.refilledAt) : ℚ) / Duration.inSeconds b.interval =
      (now - b.refilledAt : ℕ) / b.interval := by
    have hpos : (nanosPerSecond : ℚ) ≠ 0 := by norm_num [nanosPerSecond]
    rw [Duration.inSeconds_eq, Duration.inSeconds_eq, div_div_div_cancel_right₀ hpos]
  rw [filled, ← hearned]
  rfl

/-- **The answer of a bucket** that holds tokens and earns them in time. -/
theorem tryAcquire_eq (hburst : b.burst ≠ 0) (hinterval : b.interval ≠ 0) :
    b.tryAcquire now =
      if 1 ≤ b.filled now then
        (true, { b with tokens := b.filled now - 1, refilledAt := now })
      else (false, { b with tokens := b.filled now, refilledAt := now }) := by
  have hone : (Scalar.ofNat 1 : ℚ) = 1 := Nat.cast_one
  rw [tryAcquire, if_neg hburst, if_neg hinterval, refill_eq, hone]
  by_cases h : 1 ≤ b.filled now
  · have hle : Scalar.le 1 (b.filled now) = true := decide_eq_true h
    rw [if_pos h]
    simp only [hle, if_true]
    rfl
  · have hle : Scalar.le 1 (b.filled now) = false := decide_eq_false h
    rw [if_neg h]
    simp only [hle, Bool.false_eq_true, if_false]

/-- **A question to a bucket.**  It never owes a token; and where it grants nothing it has less than
one, and has kept all that it earned. -/
theorem exists_tryAcquire_eq (hburst : 1 ≤ b.burst) (hinterval : 0 < b.interval)
    (htokens : 0 ≤ b.tokens) (now : Instant) :
    ∃ (granted : Bool) (tokens : ℚ),
      b.tryAcquire now = (granted, { b with tokens := tokens, refilledAt := now }) ∧ 0 ≤ tokens ∧
        (granted = false → tokens < 1 ∧
          tokens * b.interval = b.tokens * b.interval + (now - b.refilledAt : ℕ)) := by
  have hpos : (0 : ℚ) < b.interval := Nat.cast_pos.2 hinterval
  have hone : (1 : ℚ) ≤ b.burst := Nat.one_le_cast.2 hburst
  have hearned : 0 ≤ ((now - b.refilledAt : ℕ) : ℚ) / b.interval :=
    div_nonneg (Nat.cast_nonneg _) hpos.le
  have hanswer : b.tryAcquire now = _ :=
    tryAcquire_eq (Nat.ne_of_gt hburst) (Nat.ne_of_gt hinterval)
  by_cases h : 1 ≤ b.filled now
  · rw [if_pos h] at hanswer
    exact ⟨true, _, hanswer, sub_nonneg.2 h, nofun⟩
  · rw [if_neg h] at hanswer
    have hlt : b.filled now < 1 := not_le.1 h
    have hkept : b.filled now = b.tokens + (now - b.refilledAt : ℕ) / b.interval :=
      min_eq_left (((min_lt_iff.1 hlt).resolve_right (not_lt.2 hone)).le.trans hone)
    refine ⟨false, _, hanswer, ?_, fun _ => ⟨hlt, ?_⟩⟩
    · rw [hkept]
      exact add_nonneg htokens hearned
    · rw [hkept, add_mul, div_mul_cancel₀ _ hpos.ne']

end Bucket

end CertRotation
