import CertRotation.Testing.Poll
import Mathlib.Algebra.Order.Floor.Div
import Mathlib.Order.Bounds.Basic

/-!
# One check after the other

Waiting ends by the clock and not by a count: a check that does not hold is followed by another one
as long as the limit has not come.  `Poll.eventually` is told a number of checks that suffices.
`Poll.Polls` is the loop without it, and the two come to the same: the loop ends, and it ends with
the answer of `eventually`, before that number can matter.

The check may keep a state, so what it says depends on the calls before.  What it would say at each
call, if there always was another one, is `Poll.saysAt`; the answer is read off these.

* `Poll.stateAt`, `Poll.saysAt` — the calls that there would be, one every interval;
* `Poll.Polls`, `Poll.polls_within` — the loop, and that it ends;
* `Poll.Polls.exists_last` — which call is the last;
* `Poll.eventually_decides` — **waiting decides at the first call that holds or is not before the
  limit**.
-/

set_option autoImplicit false

namespace CertRotation

namespace Poll

variable {σ : Type} {check : σ → Duration → Bool × σ} {timeout elapsed : Duration} {calls : Nat}
  {state : σ} {times : List Duration} {answer : Answer σ}

/-! ## The calls that there would be -/

/-- What the check has become before its call number `i`, the first one being number 0. -/
def stateAt (check : σ → Duration → Bool × σ) (state : σ) : Nat → σ
  | 0 => state
  | i + 1 => (check (stateAt check state i) (i * interval)).2

/-- What the check says at its call number `i`. -/
def saysAt (check : σ → Duration → Bool × σ) (state : σ) (i : Nat) : Bool :=
  (check (stateAt check state i) (i * interval)).1

/-- The answer of waiting that ends with call number `last`. -/
def answerAt (check : σ → Duration → Bool × σ) (state : σ) (last : Nat) : Answer σ :=
  ⟨saysAt check state last, last + 1, last * interval, stateAt check state (last + 1)⟩

theorem interval_pos : 0 < interval := by decide

/-- Whole intervals are whole milliseconds, and a timer is exact between these. -/
theorem deadline_mul_interval (i : Nat) :
    Instant.deadline (i * interval) interval = (i + 1) * interval := by
  have hmilli : nanosPerMilli ∣ interval := Nat.dvd_mul_left _ _
  rw [Instant.deadline_eq (hmilli.mul_left i) hmilli, Nat.succ_mul]

/-! ## The loop -/

/-- The loop as it stands, from a round on: `calls` calls have been made before, the list is of the
times of those that follow. -/
inductive Polls (check : σ → Duration → Bool × σ) (timeout : Duration) :
    Nat → Duration → σ → List Duration → Answer σ → Prop
  | holds {calls : Nat} {elapsed : Duration} {state : σ} (hheld : (check state elapsed).1 = true) :
      Polls check timeout calls elapsed state [elapsed]
        ⟨true, calls + 1, elapsed, (check state elapsed).2⟩
  | late {calls : Nat} {elapsed : Duration} {state : σ} (hheld : (check state elapsed).1 = false)
      (hlate : timeout ≤ elapsed) :
      Polls check timeout calls elapsed state [elapsed]
        ⟨false, calls + 1, elapsed, (check state elapsed).2⟩
  | again {calls : Nat} {elapsed : Duration} {state : σ} {times : List Duration} {answer : Answer σ}
      (hheld : (check state elapsed).1 = false) (hearly : elapsed < timeout)
      (hrest : Polls check timeout (calls + 1) (Instant.deadline elapsed interval)
        (check state elapsed).2 times answer) :
      Polls check timeout calls elapsed state (elapsed :: times) answer

/-- One round of waiting, where another one is allowed. -/
theorem within_succ (check : σ → Duration → Bool × σ) (timeout : Duration) (fuel calls : Nat)
    (elapsed : Duration) (state : σ) : within check timeout (fuel + 1) calls elapsed state =
      if (check state elapsed).1 then ⟨true, calls + 1, elapsed, (check state elapsed).2⟩
      else if timeout ≤ elapsed then ⟨false, calls + 1, elapsed, (check state elapsed).2⟩
      else within check timeout fuel (calls + 1) (Instant.deadline elapsed interval)
        (check state elapsed).2 := rfl

/-- **The loop ends**, and rounds for all the intervals up to the limit suffice. -/
theorem polls_within {fuel i : Nat} (hfuel : timeout ≤ (i + fuel) * interval) (state : σ) :
    ∃ times, Polls check timeout i (i * interval) state times
      (within check timeout (fuel + 1) i (i * interval) state) := by
  induction fuel generalizing i state with
  | zero =>
    rw [within_succ]
    split
    · exact ⟨_, .holds ‹_›⟩
    rename_i hheld
    have hlate : timeout ≤ i * interval := hfuel
    rw [if_pos hlate]
    exact ⟨_, .late (Bool.eq_false_iff.2 hheld) hlate⟩
  | succ fuel ih =>
    rw [within_succ]
    split
    · exact ⟨_, .holds ‹_›⟩
    rename_i hheld
    split
    · exact ⟨_, .late (Bool.eq_false_iff.2 hheld) ‹_›⟩
    rename_i hearly
    have hnext : timeout ≤ (i + 1 + fuel) * interval := by
      rwa [Nat.add_assoc, Nat.add_comm 1]
    obtain ⟨times, hrest⟩ := ih hnext (check state (i * interval)).2
    rw [← deadline_mul_interval] at hrest
    exact ⟨_, .again (Bool.eq_false_iff.2 hheld) (Nat.lt_of_not_le hearly) hrest⟩

/-- **Which call is the last**: the loop goes on, with one call every interval, until the check holds
or the limit has come. -/
theorem Polls.exists_last (h : Polls check timeout calls elapsed state times answer) {start : σ}
    (helapsed : elapsed = calls * interval) (hstate : state = stateAt check start calls) :
    ∃ more, answer = answerAt check start (calls + more) ∧
      times = (List.range' calls (more + 1)).map (· * interval) ∧
      (saysAt check start (calls + more) = true ∨ timeout ≤ (calls + more) * interval) ∧
      ∀ i < more, saysAt check start (calls + i) = false ∧ (calls + i) * interval < timeout := by
  induction h with
  | holds hheld =>
    subst helapsed hstate
    refine ⟨0, ?_, by simp, .inl hheld, by simp⟩
    simp only [answerAt, Nat.add_zero, saysAt, hheld, stateAt]
  | late hheld hlate =>
    subst helapsed hstate
    refine ⟨0, ?_, by simp, .inr hlate, by simp⟩
    simp only [answerAt, Nat.add_zero, saysAt, hheld, stateAt]
  | @again calls elapsed state times answer hheld hearly _ ih =>
    subst helapsed hstate
    obtain ⟨more, hanswer, htimes, hlast, hbefore⟩ := ih (deadline_mul_interval calls) rfl
    have hshift : ∀ i, calls + (i + 1) = calls + 1 + i := by omega
    refine ⟨more + 1, ?_, ?_, ?_, fun i hi => ?_⟩
    · rw [hshift, hanswer]
    · rw [htimes, List.range'_succ (n := more + 1), List.map_cons]
    · rwa [hshift]
    · cases i with
      | zero => exact ⟨hheld, hearly⟩
      | succ i =>
        rw [hshift]
        exact hbefore i (by omega)

/-- The loop has one result. -/
theorem Polls.unique {others : List Duration} {other : Answer σ}
    (h : Polls check timeout calls elapsed state times answer)
    (hother : Polls check timeout calls elapsed state others other) :
    others = times ∧ other = answer := by
  induction h generalizing others with
  | holds hheld =>
    cases hother with
    | holds _ => exact ⟨rfl, rfl⟩
    | late hno _ => simp [hheld] at hno
    | again hno _ _ => simp [hheld] at hno
  | late hheld hlate =>
    cases hother with
    | holds hyes => simp [hheld] at hyes
    | late _ _ => exact ⟨rfl, rfl⟩
    | again _ hearly _ => exact absurd hlate (Nat.not_le.2 hearly)
  | again hheld hearly _ ih =>
    cases hother with
    | holds hyes => simp [hheld] at hyes
    | late _ hlate => exact absurd hlate (Nat.not_le.2 hearly)
    | again _ _ hrest =>
      obtain ⟨rfl, rfl⟩ := ih hrest
      exact ⟨rfl, rfl⟩

/-! ## The answer -/

/-- The most calls there can be: one for each interval that begins before the limit, and one more. -/
theorem maxCalls_eq (timeout : Duration) : maxCalls timeout = timeout ⌈/⌉ interval + 1 := by
  rw [maxCalls, Nat.ceilDiv_eq_add_pred_div, Nat.add_sub_assoc interval_pos]

theorem le_ceilDiv_mul_interval (timeout : Duration) :
    timeout ≤ (timeout ⌈/⌉ interval) * interval := by
  rw [Nat.mul_comm]
  exact (ceilDiv_le_iff_le_smul interval_pos).1 (Nat.le_refl _)

/-- **Waiting decides** at the first call that holds or is not made before the limit.  The loop has
one result, the answer of `eventually`, with calls at once and then after every interval up to the
last one.  The answer is what the check says there, so it is negative only where that call, at the
limit or after it, has failed.  There is one call at least, and at most one for each interval that
begins before the limit and one more. -/
theorem eventually_decides (check : σ → Duration → Bool × σ) (timeout : Duration) (state : σ) :
    ∃ last,
      IsLeast {i | saysAt check state i = true ∨ timeout ≤ i * interval} last ∧
      eventually check timeout state = answerAt check state last ∧
      (∀ times answer, Polls check timeout 0 0 state times answer ↔
        times = (List.range (last + 1)).map (· * interval) ∧
          answer = eventually check timeout state) ∧
      ((eventually check timeout state).held = false →
        saysAt check state last = false ∧ timeout ≤ last * interval) ∧
      last + 1 ≤ timeout ⌈/⌉ interval + 1 := by
  have hstart : (0 : Nat) * interval = 0 := Nat.zero_mul _
  obtain ⟨times, hpolls⟩ : ∃ times, Polls check timeout 0 0 state times
      (eventually check timeout state) := by
    have hfuel : timeout ≤ (0 + timeout ⌈/⌉ interval) * interval := by
      rw [Nat.zero_add]
      exact le_ceilDiv_mul_interval timeout
    rw [eventually, maxCalls_eq]
    simpa only [hstart] using polls_within hfuel state
  obtain ⟨last, hanswer, htimes, hlast, hbefore⟩ := hpolls.exists_last hstart.symm rfl
  simp only [Nat.zero_add, ← List.range_eq_range'] at hanswer htimes hlast hbefore
  have hleast : IsLeast {i | saysAt check state i = true ∨ timeout ≤ i * interval} last := by
    refine ⟨hlast, fun i hi => ?_⟩
    by_contra hlt
    obtain ⟨hverdict, hearly⟩ := hbefore i (Nat.lt_of_not_le hlt)
    rcases hi with hi | hi
    · simp [hverdict] at hi
    · exact absurd hi (Nat.not_le.2 hearly)
  refine ⟨last, hleast, hanswer, fun others other => ⟨fun hother => ?_, ?_⟩, fun hheld => ?_, ?_⟩
  · obtain ⟨rfl, rfl⟩ := hpolls.unique hother
    exact ⟨htimes, rfl⟩
  · rintro ⟨rfl, rfl⟩
    rwa [← htimes]
  · have hverdict : saysAt check state last = false := by rwa [hanswer] at hheld
    exact ⟨hverdict, hlast.resolve_left (by simp [hverdict])⟩
  · exact Nat.succ_le_succ (hleast.2 (.inr (le_ceilDiv_mul_interval timeout)))

/-- A check that never holds is made at 0, 20, 40 and 60 milliseconds in a wait of 50. -/
example : eventually (fun calls _ => (false, calls + 1)) (Duration.ofMillis 50) 0 =
    ⟨false, 4, Duration.ofMillis 60, 4⟩ := by rfl

end Poll

end CertRotation
