import CertRotation.Backoff
import CertRotation.Proofs.Number.Exact

/-!
# How waits grow

In exact fractions a wait is the first one times a power of the multiplier, up to the longest wait.
With a multiplier of at least one, powers grow with their exponent, and so do waits.

The number of an attempt is counted in 32 binary digits, though, and the exponent that it stands for
is read with a sign.  From attempt 2147483648 on exponents are negative, and they begin to grow anew
from the least one.  So waits grow in the first half of all attempts and in the second half, and do
not grow from the one to the other.

* `Scalar.powerWithin_eq`, `Scalar.power_eq` — repeated squaring gives powers;
* `Backoff.exponent_of_lt`, `Backoff.exponent_of_le` — the exponent of an attempt;
* `Backoff.waitAt`, `Backoff.waitAt_mono` — the wait for an exponent grows;
* `Backoff.delay_le_delay_iff` — **when the wait of a later attempt is not shorter**;
* `Backoff.delay_falls` — with the usual waits, one that is.
-/

set_option autoImplicit false

namespace CertRotation

namespace Scalar

theorem floor_mono {x y : ℚ} (h : x ≤ y) : floor x ≤ floor y :=
  min_le_min_right _ (Int.toNat_le_toNat (Rat.floor_monotone h))

theorem floor_natCast_le (n : ℕ) : floor (n : ℚ) ≤ n := by
  refine (min_le_left _ _).trans_eq ?_
  rw [← Int.cast_natCast, Rat.floor_intCast, Int.toNat_natCast]

/-- Repeated squaring multiplies by a power, if it may go on for all digits of the exponent. -/
theorem powerWithin_eq {fuel n : ℕ} (hn : n < 2 ^ fuel) (acc base : ℚ) :
    powerWithin fuel acc base n = acc * base ^ n := by
  induction fuel generalizing n acc base with
  | zero =>
    obtain rfl : n = 0 := Nat.lt_one_iff.1 hn
    rw [powerWithin, pow_zero, mul_one]
  | succ fuel ih =>
    have hodd : (if n % 2 = 1 then mul acc base else acc) = acc * base ^ (n % 2) := by
      rcases Nat.mod_two_eq_zero_or_one n with h | h
      · rw [h, if_neg zero_ne_one, pow_zero, mul_one]
      · rw [h, if_pos rfl, pow_one]
        rfl
    have hsplit : base ^ n = base ^ (n % 2) * (base * base) ^ (n / 2) := by
      rw [← pow_two, ← pow_mul, ← pow_add, Nat.mod_add_div]
    have hhalf : n / 2 < 2 ^ fuel := by
      rw [Nat.pow_succ] at hn
      exact Nat.div_lt_of_lt_mul (Nat.mul_comm _ 2 ▸ hn)
    rw [powerWithin, hodd, hsplit, ← mul_assoc]
    split
    · rename_i hzero
      rw [hzero, pow_zero, mul_one]
    · exact ih hhalf _ _

theorem power_eq (base : ℚ) (exponent : ℤ) : power base exponent = base ^ exponent := by
  have hone : (ofNat 1 : ℚ) = 1 := Nat.cast_one
  have hpositive : powerWithin (exponent.natAbs.log2 + 1) (ofNat 1) base exponent.natAbs =
      base ^ (exponent.natAbs : ℤ) := by
    rw [powerWithin_eq Nat.lt_log2_self, hone, one_mul, zpow_natCast]
  rw [power, hpositive]
  by_cases hneg : exponent < 0
  · have habs : (exponent.natAbs : ℤ) = -exponent := Int.ofNat_natAbs_of_nonpos hneg.le
    rw [if_pos hneg, hone, habs]
    calc div 1 (base ^ (-exponent))
        = 1 / base ^ (-exponent) := rfl
      _ = base ^ exponent := by rw [zpow_neg, one_div, inv_inv]
  · rw [if_neg hneg, Int.natAbs_of_nonneg (not_lt.1 hneg)]

end Scalar

namespace Backoff

variable {b : Backoff ℚ} {chance : ℚ} {a c : ℕ}

/-! ## Exponents -/

/-- In the first half of all attempts the exponent is the number of the attempt. -/
theorem exponent_of_lt (ha : a < 2147483648) : exponent a = a := by
  have hsize : (UInt32.size : ℤ) = 4294967296 := rfl
  exact Int.bmod_eq_of_le_mul_two (by omega) (by omega)

/-- In the second half it is negative. -/
theorem exponent_of_le (hle : 2147483648 ≤ a) (ha : a < UInt32.size) :
    exponent a = (a : ℤ) - (UInt32.size : ℤ) := by
  have hsize : (UInt32.size : ℤ) = 4294967296 := rfl
  have ha : a < 4294967296 := ha
  exact (Int.sub_bmod_right _ _).symm.trans (Int.bmod_eq_of_le_mul_two (by omega) (by omega))

theorem exponent_mono (hac : a ≤ c) (hhalf : c < 2147483648 ∨ 2147483648 ≤ a)
    (hc : c < UInt32.size) : exponent a ≤ exponent c := by
  rcases hhalf with h | h
  · rw [exponent_of_lt h, exponent_of_lt (Nat.lt_of_le_of_lt hac h)]
    exact Int.ofNat_le.2 hac
  · rw [exponent_of_le h (Nat.lt_of_le_of_lt hac hc), exponent_of_le (h.trans hac) hc]
    exact Int.sub_le_sub_right (Int.ofNat_le.2 hac) _

/-- All exponents of the second half are below those of the first half. -/
theorem exponent_le_of_halves (ha : a < 2147483648) (hle : 2147483648 ≤ c) (hc : c < UInt32.size) :
    exponent c ≤ exponent a := by
  rw [exponent_of_lt ha, exponent_of_le hle hc]
  exact (Int.sub_nonpos_of_le (Int.ofNat_le.2 hc.le)).trans (Int.natCast_nonneg a)

/-! ## Waits -/

/-- The wait for a power of the multiplier, without a random part. -/
def waitAt (b : Backoff ℚ) (e : ℤ) : Duration :=
  Duration.ofMillis (Scalar.floor
    (min (Duration.millis b.initialDelay * b.multiplier ^ e) (Duration.millis b.maxDelay : ℚ)))

theorem delay_eq_waitAt (hjitter : b.jitter = false) (chance : ℚ) (attempt : ℕ) :
    b.delay chance attempt = b.waitAt (exponent attempt) := by
  rw [delay, hjitter, plainMillis, Scalar.power_eq]
  rfl

theorem waitAt_mono (hmultiplier : 1 ≤ b.multiplier) {e f : ℤ} (hef : e ≤ f) :
    b.waitAt e ≤ b.waitAt f := by
  have hpower : b.multiplier ^ e ≤ b.multiplier ^ f := zpow_le_zpow_right₀ hmultiplier hef
  refine Nat.mul_le_mul_right _ (Scalar.floor_mono (min_le_min_right _ ?_))
  exact mul_le_mul_of_nonneg_left hpower (Nat.cast_nonneg _)

theorem waitAt_le (b : Backoff ℚ) (e : ℤ) : b.waitAt e ≤ b.maxDelay := by
  calc b.waitAt e
      ≤ Duration.ofMillis (Scalar.floor (Duration.millis b.maxDelay : ℚ)) :=
        Nat.mul_le_mul_right _ (Scalar.floor_mono (min_le_right _ _))
    _ ≤ Duration.ofMillis (Duration.millis b.maxDelay) :=
        Nat.mul_le_mul_right _ (Scalar.floor_natCast_le _)
    _ ≤ b.maxDelay := Nat.div_mul_le_self _ _

/-- **How waits grow.**  No wait is longer than the longest one.  The wait of a later attempt is not
shorter, if both are in the same half of all attempts; if they are not, it is so only where the two
waits are the same. -/
theorem delay_le_delay_iff (hjitter : b.jitter = false) (hmultiplier : 1 ≤ b.multiplier)
    (chance : ℚ) :
    (∀ attempt, b.delay chance attempt ≤ b.maxDelay) ∧
      ∀ a c, a ≤ c → c < UInt32.size →
        (b.delay chance a ≤ b.delay chance c ↔
          c < 2147483648 ∨ 2147483648 ≤ a ∨ b.delay chance a = b.delay chance c) := by
  refine ⟨fun attempt => ?_, fun a c hac hc => ⟨fun hle => ?_, ?_⟩⟩
  · rw [delay_eq_waitAt hjitter]
    exact b.waitAt_le _
  · by_contra hapart
    obtain ⟨hhalf, hother, hne⟩ : 2147483648 ≤ c ∧ a < 2147483648 ∧
        b.delay chance a ≠ b.delay chance c := by
      simpa using hapart
    refine hne (Nat.le_antisymm hle ?_)
    rw [delay_eq_waitAt hjitter, delay_eq_waitAt hjitter]
    exact waitAt_mono hmultiplier (exponent_le_of_halves hother hhalf hc)
  · rw [← or_assoc]
    rintro (hhalf | heq)
    · rw [delay_eq_waitAt hjitter, delay_eq_waitAt hjitter]
      exact waitAt_mono hmultiplier (exponent_mono hac hhalf hc)
    · exact Nat.le_of_eq heq

/-- The usual waits, without a random part. -/
def steady : Backoff ℚ := { usual with jitter := false }

theorem one_le_multiplier_steady : 1 ≤ steady.multiplier := by decide +kernel

/-- From the fourth attempt to the sixth the usual wait grows fourfold. -/
theorem delay_le_delay_of_usual : steady.jitter = false ∧ 1 ≤ steady.multiplier ∧
    steady.delay 0 3 = Duration.ofMillis 800 ∧ steady.delay 0 5 = Duration.ofMillis 3200 ∧
    steady.delay 0 3 ≤ steady.delay 0 5 := by
  obtain ⟨-, hgrowth⟩ := delay_le_delay_iff (rfl : steady.jitter = false) one_le_multiplier_steady 0
  exact ⟨rfl, one_le_multiplier_steady, by decide +kernel, by decide +kernel,
    (hgrowth 3 5 (by decide) (by decide)).2 (.inl (by decide))⟩

/-- The usual waits have long reached the longest one, when after attempt 2147483648 there is none. -/
theorem delay_falls : steady.jitter = false ∧ 1 ≤ steady.multiplier ∧
    2147483648 < UInt32.size ∧ steady.delay 0 2147483647 = steady.maxDelay ∧
    steady.delay 0 2147483648 = 0 ∧ ¬ steady.delay 0 2147483647 ≤ steady.delay 0 2147483648 := by
  have hlong : steady.delay 0 2147483647 = steady.maxDelay := by
    have hreached : steady.waitAt 7 = steady.maxDelay := by decide +kernel
    rw [delay_eq_waitAt rfl, exponent_of_lt (by decide)]
    refine Nat.le_antisymm (waitAt_le _ _) (hreached.symm.trans_le ?_)
    exact waitAt_mono one_le_multiplier_steady (by decide)
  have hnone : steady.delay 0 2147483648 = 0 := by
    have hless : steady.waitAt (-7) = 0 := by decide +kernel
    rw [delay_eq_waitAt rfl, exponent_of_le (by decide) (by decide)]
    refine Nat.le_zero.1 (le_of_le_of_eq ?_ hless)
    exact waitAt_mono one_le_multiplier_steady (by decide)
  refine ⟨rfl, one_le_multiplier_steady, by decide, hlong, hnone, ?_⟩
  rw [hlong, hnone]
  decide

end Backoff

end CertRotation
