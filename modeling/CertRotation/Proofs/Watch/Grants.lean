import CertRotation.Proofs.Number.Exact
import Mathlib.Algebra.Order.Field.Basic
import Mathlib.Tactic.Positivity

/-!
# How much a bucket grants

A bucket is asked at one instant after another.  Whatever the rhythm, between two instants it grants
no more than a full bucket and what is earned in the meantime.  A question that is not granted makes
no difference to that: what was earned until then is put to the tokens, and only the rest is still
to come.

So the tokens and the time to come are one account, and it is the sum of the two that a question
does not increase (`Bucket.IsSound.grants_add_allowance_le`), a granted one even reduces it by one.

* `Bucket.ask`, `Bucket.grants` — the answers to some questions, and how many of them were granted
  between two instants;
* `Bucket.IsSound`, `Bucket.IsSound.step` — a bucket holds between no token and all of them, and what
  a question does to it;
* `Bucket.allowance` — what a bucket may grant between two instants;
* `Bucket.grants_of_new` — **what a new bucket grants**.
-/

set_option autoImplicit false

namespace CertRotation

namespace Bucket

section Asking

variable {τ : Type} [Scalar τ]

/-- The answers to questions at some instants, and the bucket after them. -/
def ask (b : Bucket τ) : List Instant → List Bool × Bucket τ
  | [] => ([], b)
  | now :: times =>
    let (granted, b) := b.tryAcquire now
    let (answers, b) := ask b times
    (granted :: answers, b)

/-- How many of the questions from `start` to `stop` were granted. -/
def grants (b : Bucket τ) (times : List Instant) (start stop : Instant) : Nat :=
  (times.zip (b.ask times).1).countP fun q => start ≤ q.1 && q.1 ≤ stop && q.2

variable {b b' : Bucket τ} {now start stop : Instant} {granted : Bool} {times : List Instant}

theorem ask_cons (h : b.tryAcquire now = (granted, b')) (times : List Instant) :
    b.ask (now :: times) = (granted :: (b'.ask times).1, (b'.ask times).2) := by
  rw [ask, h]

theorem grants_cons (h : b.tryAcquire now = (granted, b')) :
    b.grants (now :: times) start stop =
      b'.grants times start stop + if start ≤ now && now ≤ stop && granted then 1 else 0 := by
  rw [grants, ask_cons h, List.zip_cons_cons, List.countP_cons]
  rfl

/-- Nothing is granted before the first question. -/
theorem grants_eq_zero (h : ∀ now ∈ times, stop < now) : b.grants times start stop = 0 := by
  rw [grants, List.countP_eq_zero]
  intro q hq
  have hlt := h q.1 (List.of_mem_zip hq).1
  simp [Nat.not_le.2 hlt]

end Asking

/-! ## One question -/

/-- A bucket that earns tokens in time and holds between none and all of them. -/
structure IsSound (b : Bucket ℚ) : Prop where
  burst : 1 ≤ b.burst
  interval : 0 < b.interval
  nonneg : 0 ≤ b.tokens
  le_burst : b.tokens ≤ b.burst

variable {b b' : Bucket ℚ} {now later start stop : Instant} {times : List Instant}

theorem isSound_new {interval : Duration} {burst : Nat} (hburst : 1 ≤ burst)
    (hinterval : 0 < interval) (created : Instant) : (new interval burst created).IsSound :=
  ⟨hburst, hinterval, Nat.cast_nonneg _, le_refl _⟩

theorem filled_le_burst (b : Bucket ℚ) (now : Instant) : b.filled now ≤ b.burst := min_le_right _ _

/-- A bucket loses nothing while it is not asked. -/
theorem IsSound.tokens_le_filled (h : b.IsSound) (now : Instant) : b.tokens ≤ b.filled now :=
  le_min (le_add_of_nonneg_right (by positivity)) h.le_burst

/-- A bucket earns one token in an interval, if there is room for it. -/
theorem IsSound.one_le_filled (h : b.IsSound) (hlater : b.refilledAt + b.interval ≤ now) :
    1 ≤ b.filled now := by
  have hinterval : (0 : ℚ) < b.interval := Nat.cast_pos.2 h.interval
  have hearned : (1 : ℚ) ≤ (now - b.refilledAt : ℕ) / b.interval := by
    rw [one_le_div hinterval, Nat.cast_le]
    exact Nat.le_sub_of_add_le' hlater
  exact le_min (hearned.trans (le_add_of_nonneg_left h.nonneg)) (Nat.one_le_cast.2 h.burst)

/-- What is in the bucket later was in it before or has been earned in between. -/
theorem filled_le_add (b : Bucket ℚ) (hnow : b.refilledAt ≤ now) (hlater : now ≤ later) :
    b.filled later ≤ b.filled now + (later - now : ℕ) / b.interval := by
  have hsplit : ((later - b.refilledAt : ℕ) : ℚ) / b.interval =
      (now - b.refilledAt : ℕ) / b.interval + (later - now : ℕ) / b.interval := by
    rw [← add_div, ← Nat.cast_add, add_comm, Nat.sub_add_sub_cancel hlater hnow]
  rw [filled, filled, hsplit, ← add_assoc, ← min_add_add_right]
  exact min_le_min_left _ (le_add_of_nonneg_right (by positivity))

/-- **A question to a bucket.**  It is granted if there is a whole token by then, which it takes, and
the bucket holds between none and all of the tokens as before. -/
theorem IsSound.step (h : b.IsSound) (now : Instant) :
    ∃ (granted : Bool) (tokens : ℚ),
      b.tryAcquire now = (granted, { b with tokens := tokens, refilledAt := now }) ∧
        (granted = true ↔ 1 ≤ b.filled now) ∧
        tokens + (if granted then 1 else 0) = b.filled now ∧
        IsSound { b with tokens := tokens, refilledAt := now } := by
  have hanswer : b.tryAcquire now = _ :=
    tryAcquire_eq (Nat.ne_of_gt h.burst) (Nat.ne_of_gt h.interval)
  have hnonneg : 0 ≤ b.filled now := h.nonneg.trans (h.tokens_le_filled now)
  have hle := b.filled_le_burst now
  by_cases hone : 1 ≤ b.filled now
  · rw [if_pos hone] at hanswer
    exact ⟨true, _, hanswer, by simp [hone], by simp,
      h.burst, h.interval, sub_nonneg.2 hone, (sub_le_self _ zero_le_one).trans hle⟩
  · rw [if_neg hone] at hanswer
    exact ⟨false, _, hanswer, by simp [hone], by simp, h.burst, h.interval, hnonneg, hle⟩

/-! ## Some questions -/

/-- Questions keep a bucket sound. -/
theorem IsSound.ask (h : b.IsSound) (times : List Instant) :
    (b.ask times).2.IsSound ∧ (b.ask times).2.burst = b.burst := by
  induction times generalizing b with
  | nil => exact ⟨h, rfl⟩
  | cons now times ih =>
    obtain ⟨granted, tokens, hanswer, -, -, hsound⟩ := h.step now
    rw [ask_cons hanswer]
    exact ih hsound

/-- The tokens that are in the bucket can be had at any time. -/
theorem IsSound.granted_of_lt_tokens (h : b.IsSound) {held i : Nat} (hheld : held ≤ b.tokens)
    (hi : i < held) (hlength : i < times.length) : (b.ask times).1[i]? = some true := by
  induction times generalizing b held i with
  | nil => simp at hlength
  | cons now times ih =>
    obtain ⟨granted, tokens, hanswer, hgranted, htokens, hsound⟩ := h.step now
    have hfilled : (held : ℚ) ≤ b.filled now := hheld.trans (h.tokens_le_filled now)
    have hone : (1 : ℚ) ≤ held := Nat.one_le_cast.2 (Nat.one_le_of_lt hi)
    obtain rfl : granted = true := hgranted.2 (hone.trans hfilled)
    rw [ask_cons hanswer]
    cases i with
    | zero => rfl
    | succ i =>
      have hleft : ((held - 1 : ℕ) : ℚ) ≤ tokens := by
        rw [Nat.cast_sub (Nat.one_le_of_lt hi), Nat.cast_one, sub_le_iff_le_add]
        exact hfilled.trans_eq htokens.symm
      exact ih hsound hleft (by omega) (Nat.lt_of_succ_lt_succ hlength)

/-- A question is granted if it comes an interval after the one before. -/
theorem IsSound.granted_of_rested (h : b.IsSound) {i : Nat} (hnow : times[i]? = some now)
    (hlater : times[i + 1]? = some later) (hrested : now + b.interval ≤ later) :
    (b.ask times).1[i + 1]? = some true := by
  induction times generalizing b i with
  | nil => simp at hnow
  | cons first times ih =>
    obtain ⟨granted, tokens, hanswer, -, -, hsound⟩ := h.step first
    rw [ask_cons hanswer]
    cases i with
    | succ i => exact ih hsound hnow hlater hrested
    | zero =>
      obtain ⟨times, rfl⟩ : ∃ rest, times = later :: rest := by
        cases times with
        | nil => simp at hlater
        | cons second rest => exact ⟨rest, by simpa using hlater⟩
      obtain rfl : first = now := by simpa using hnow
      obtain ⟨second, left, hsecond, hgranted, -, -⟩ := hsound.step later
      obtain rfl : second = true := hgranted.2 (hsound.one_le_filled hrested)
      rw [ask_cons hsecond]
      rfl

/-! ## Between two instants -/

/-- What a bucket may grant from `start` to `stop`: the tokens in it by the time when the first
question can come, and what it earns after that. -/
def allowance (b : Bucket ℚ) (start stop : Instant) : ℚ :=
  b.filled (max start b.refilledAt) + (stop - max start b.refilledAt : ℕ) / b.interval

theorem IsSound.allowance_nonneg (h : b.IsSound) (start stop : Instant) :
    0 ≤ b.allowance start stop :=
  add_nonneg (h.nonneg.trans (h.tokens_le_filled _)) (by positivity)

theorem allowance_le (b : Bucket ℚ) (start stop : Instant) :
    b.allowance start stop ≤ b.burst + (stop - start : ℕ) / b.interval := by
  have hshort : stop - max start b.refilledAt ≤ stop - start :=
    Nat.sub_le_sub_left (Nat.le_max_left _ _) _
  unfold allowance
  gcongr
  exact b.filled_le_burst _

/-- Asking a bucket does not fill it. -/
theorem filled_le_filled {tokens : ℚ} (htokens : tokens ≤ b.filled now) (hnow : b.refilledAt ≤ now)
    (hlater : now ≤ later) :
    filled { b with tokens := tokens, refilledAt := now } later ≤ b.filled later := by
  refine le_min ?_ (filled_le_burst _ _)
  have hearned : b.filled now ≤ b.tokens + (now - b.refilledAt : ℕ) / b.interval := min_le_left _ _
  calc filled { b with tokens := tokens, refilledAt := now } later
      ≤ tokens + (later - now : ℕ) / b.interval := min_le_left _ _
    _ ≤ b.tokens + (now - b.refilledAt : ℕ) / b.interval + (later - now : ℕ) / b.interval := by
      gcongr
      exact htokens.trans hearned
    _ = b.tokens + (later - b.refilledAt : ℕ) / b.interval := by
      rw [add_assoc, ← add_div, ← Nat.cast_add, add_comm (now - _), Nat.sub_add_sub_cancel hlater hnow]

/-- **The account of a bucket.**  What is granted by a question and may be granted after it could
have been granted before. -/
theorem IsSound.grants_add_allowance_le (h : b.IsSound) (start : Instant)
    (hnow : b.refilledAt ≤ now) (hstop : now ≤ stop) {granted : Bool}
    (hanswer : b.tryAcquire now = (granted, b')) :
    b'.allowance start stop + (if start ≤ now && now ≤ stop && granted then 1 else 0) ≤
      b.allowance start stop := by
  obtain ⟨granted, tokens, hanswer', hgranted, htokens, hsound⟩ := h.step now
  obtain ⟨rfl, rfl⟩ := Prod.mk.inj (hanswer.symm.trans hanswer')
  unfold allowance
  dsimp only
  rcases Nat.lt_or_ge now start with hbefore | hstart
  · -- The window has not opened, and it will find what it would have found.
    have hkept : tokens ≤ b.filled now := by
      rw [← htokens]
      split <;> simp
    rw [max_eq_left (hnow.trans hbefore.le), max_eq_left hbefore.le,
      if_neg (by simp [Nat.not_le.2 hbefore]), add_zero]
    gcongr
    exact filled_le_filled hkept hnow hbefore.le
  · have hopen : max start b.refilledAt ≤ now := max_le hstart hnow
    have hleft : filled { b with tokens := tokens, refilledAt := now } now ≤ tokens := by
      refine (min_le_left _ _).trans_eq ?_
      simp
    have hearned := b.filled_le_add (Nat.le_max_right start b.refilledAt) hopen
    simp only [max_eq_right hstart, hstart, hstop, decide_true, Bool.true_and]
    calc filled { b with tokens := tokens, refilledAt := now } now + (stop - now : ℕ) / b.interval +
          (if granted then 1 else 0)
        ≤ tokens + (stop - now : ℕ) / b.interval + (if granted then 1 else 0) := by gcongr
      _ = b.filled now + (stop - now : ℕ) / b.interval := by
        rw [← htokens, add_right_comm]
      _ ≤ b.filled (max start b.refilledAt) + (now - max start b.refilledAt : ℕ) / b.interval +
          (stop - now : ℕ) / b.interval := by gcongr
      _ = b.filled (max start b.refilledAt) +
          (stop - max start b.refilledAt : ℕ) / b.interval := by
        rw [add_assoc, add_comm (((now - _ : ℕ) : ℚ) / _), ← add_div, ← Nat.cast_add,
          Nat.sub_add_sub_cancel hstop hopen]

/-- **A bucket grants no more than its account says**, however it is asked. -/
theorem IsSound.grants_le_allowance (h : b.IsSound)
    (hsorted : (b.refilledAt :: times).Pairwise (· ≤ ·)) :
    (b.grants times start stop : ℚ) ≤ b.allowance start stop := by
  induction times generalizing b with
  | nil => exact Nat.cast_zero.trans_le (h.allowance_nonneg start stop)
  | cons now times ih =>
    obtain ⟨hafter, hsorted⟩ := List.pairwise_cons.1 hsorted
    have hnow : b.refilledAt ≤ now := hafter now List.mem_cons_self
    rcases Nat.lt_or_ge stop now with hover | hstop
    · have hlate : ∀ later ∈ now :: times, stop < later := by
        refine List.forall_mem_cons.2 ⟨hover, fun later hlater => ?_⟩
        exact hover.trans_le ((List.pairwise_cons.1 hsorted).1 later hlater)
      rw [grants_eq_zero hlate, Nat.cast_zero]
      exact h.allowance_nonneg start stop
    · obtain ⟨granted, tokens, hanswer, -, -, hsound⟩ := h.step now
      have hrest := ih hsound hsorted
      have haccount := h.grants_add_allowance_le start hnow hstop hanswer
      rw [grants_cons hanswer, Nat.cast_add, Nat.cast_ite, Nat.cast_one, Nat.cast_zero]
      exact (add_le_add_left hrest _).trans haccount

/-- **What a new bucket grants.**  Asked at any instants, one not before the other, it grants
between two of them at most all of its tokens and those that it earns in the meantime.  As many
questions as it has tokens are granted first, and so is every question that comes an interval after
the one before; and it always holds between no token and all of them. -/
theorem grants_of_new {interval : Duration} {burst : Nat} {created : Instant}
    (hburst : 1 ≤ burst) (hinterval : 0 < interval)
    (hsorted : (created :: times).Pairwise (· ≤ ·)) :
    (∀ start stop, ((new interval burst created : Bucket ℚ).grants times start stop : ℚ) ≤
      burst + (stop - start : ℕ) / interval) ∧
    (∀ i < burst, i < times.length →
      ((new interval burst created : Bucket ℚ).ask times).1[i]? = some true) ∧
    (∀ (i : Nat) (now later : Instant), times[i]? = some now → times[i + 1]? = some later →
      now + interval ≤ later →
        ((new interval burst created : Bucket ℚ).ask times).1[i + 1]? = some true) ∧
    ∀ asked, 0 ≤ ((new interval burst created : Bucket ℚ).ask (times.take asked)).2.tokens ∧
      ((new interval burst created : Bucket ℚ).ask (times.take asked)).2.tokens ≤ burst := by
  have hsound := isSound_new hburst hinterval created
  refine ⟨fun start stop => ?_, fun i hi hlength => ?_, fun i now later hnow hlater hrested => ?_,
    fun asked => ?_⟩
  · exact (hsound.grants_le_allowance hsorted).trans (allowance_le _ _ _)
  · exact hsound.granted_of_lt_tokens (le_refl _) hi hlength
  · exact hsound.granted_of_rested hnow hlater hrested
  · obtain ⟨hasked, hsame⟩ := hsound.ask (times.take asked)
    have hle := hasked.le_burst
    rw [hsame] at hle
    exact ⟨hasked.nonneg, hle⟩

/-- A bucket for two tokens that earns one in ten nanoseconds grants three questions within twelve,
and the last one after a rest. -/
theorem grants_of_bursty :
    ((new 10 2 0 : Bucket ℚ).ask [0, 1, 2, 12, 13, 25, 36]).1 =
        [true, true, false, true, false, true, true] ∧
      (new 10 2 0 : Bucket ℚ).grants [0, 1, 2, 12, 13, 25, 36] 0 12 = 3 ∧
      (((new 10 2 0 : Bucket ℚ).grants [0, 1, 2, 12, 13, 25, 36] 0 12 : ℕ) : ℚ) ≤
        (2 : ℕ) + (12 - 0 : ℕ) / (10 : ℕ) ∧
      ((new 10 2 0 : Bucket ℚ).ask [0, 1, 2, 12, 13, 25, 36]).1[6]? = some true := by
  have hsorted : ([0, 0, 1, 2, 12, 13, 25, 36] : List Instant).Pairwise (· ≤ ·) := by decide
  obtain ⟨hwindow, -, hrested, -⟩ := grants_of_new (by decide : 1 ≤ 2)
    (by decide : 0 < 10) hsorted
  exact ⟨by decide +kernel, by decide +kernel, hwindow 0 12,
    hrested 5 25 36 rfl rfl (by decide)⟩

end Bucket

end CertRotation
