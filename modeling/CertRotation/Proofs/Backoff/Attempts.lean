import CertRotation.Backoff
import CertRotation.Proofs.Number.Exact
import CertRotation.Watch.Error
import Mathlib.Algebra.BigOperators.Ring.Finset
import Mathlib.Order.Bounds.Basic

/-!
# One attempt after the other

The loop that tries an operation again has no bound of its own: a round either ends it or counts one
more attempt, in 32 binary digits, and goes on.  `RetryPolicy.execute` is not written like that, it
is told how many retries are left.  `RetryPolicy.Loops` is the loop as it stands, where a count that
overflows leads nowhere, and the two come to the same: the loop ends, with what `execute` gives.

What it gives is then read off the attempts that there would be if there was always another one.

* `RetryPolicy.Trial`, `RetryPolicy.next` — an attempt and the one that would follow it;
* `RetryPolicy.runOf`, `RetryPolicy.now_iterate_next` — some attempts, and when they are made;
* `RetryPolicy.executeFrom_of_stop`, `RetryPolicy.executeFrom_of_error` — one round;
* `RetryPolicy.Loops`, `RetryPolicy.loops_iff` — the loop, and that it ends;
* `RetryPolicy.Loops.exists_eq_runOf`, `RetryPolicy.exists_execute_eq` — which attempt is the last;
* `Backoff.execute_of_steady` — **what a backoff without random parts does**.
-/

set_option autoImplicit false

namespace CertRotation

namespace RetryPolicy

variable {σ ε α : Type} {p : RetryPolicy} {operation : σ → Instant → Except ε α × σ}

/-! ## Attempts -/

/-- An attempt that may be made: its number, its instant, and what the operation is by then. -/
structure Trial (σ : Type) where
  number : Nat
  now : Instant
  state : σ

/-- What an attempt gives. -/
def Trial.outcome (operation : σ → Instant → Except ε α × σ) (t : Trial σ) : Except ε α :=
  (operation t.state t.now).1

/-- The attempt after `t`, if there is one. -/
def next (p : RetryPolicy) (operation : σ → Instant → Except ε α × σ) (t : Trial σ) : Trial σ :=
  ⟨t.number + 1, Instant.deadline t.now (p.delay t.number), (operation t.state t.now).2⟩

/-- The run in which `last` attempts follow on `t`. -/
def runOf (p : RetryPolicy) (operation : σ → Instant → Except ε α × σ) (t : Trial σ) (last : Nat) :
    Run σ ε α where
  outcome := ((p.next operation)^[last] t).outcome operation
  calls := (List.range (last + 1)).map fun i => ((p.next operation)^[i] t).now
  finished := ((p.next operation)^[last] t).now
  state := ((p.next operation)^[last + 1] t).state

variable {t : Trial σ}

theorem number_iterate_next (i : Nat) : ((p.next operation)^[i] t).number = t.number + i := by
  induction i with
  | zero => rfl
  | succ i ih =>
    rw [Function.iterate_succ_apply', next, ih]
    rfl

theorem now_iterate_next_succ (i : Nat) : ((p.next operation)^[i + 1] t).now =
    Instant.deadline ((p.next operation)^[i] t).now (p.delay (t.number + i)) := by
  rw [Function.iterate_succ_apply', next, number_iterate_next]

/-- **When attempts are made**: after all the waits before them, which leave out the time until the
next whole millisecond once, if at all. -/
theorem now_iterate_next (hdelay : ∀ attempt, nanosPerMilli ∣ p.delay attempt) (i : Nat) :
    ((p.next operation)^[i + 1] t).now =
      Instant.deadline t.now (∑ j ∈ Finset.range (i + 1), p.delay (t.number + j)) := by
  induction i with
  | zero =>
    rw [now_iterate_next_succ, Finset.sum_range_one]
    rfl
  | succ i ih =>
    rw [now_iterate_next_succ, ih, Instant.deadline_deadline _ _ (hdelay _),
      Finset.sum_range_succ _ (i + 1)]

theorem runOf_succ (t : Trial σ) (last : Nat) : p.runOf operation t (last + 1) =
    { p.runOf operation (p.next operation t) last with
      calls := t.now :: (p.runOf operation (p.next operation t) last).calls } := by
  rw [runOf, runOf, List.range_succ_eq_map, List.map_cons, List.map_map]
  rfl

/-! ## One round -/

variable [Retryable ε] {left attempt : Nat} {now : Instant} {state : σ}

/-- No attempt comes after the last one. -/
theorem shouldRetry_of_le (hattempt : p.maxRetries ≤ attempt) (e : ε) :
    p.shouldRetry e attempt = false := by
  rw [shouldRetry, decide_eq_false (Nat.not_lt.2 hattempt), Bool.false_and]

theorem shouldRetry_of_lt (hattempt : attempt < p.maxRetries) (e : ε) :
    p.shouldRetry e attempt = Retryable.isRetryable e := by
  rw [shouldRetry, decide_eq_true hattempt, Bool.true_and]

/-- The last attempt. -/
theorem executeFrom_of_stop
    (hstop : ∀ e, (operation state now).1 = .error e → p.shouldRetry e attempt = false) :
    p.executeFrom operation left attempt now state =
      ⟨(operation state now).1, [now], now, (operation state now).2⟩ := by
  rw [executeFrom.eq_def]
  dsimp only
  rcases hanswer : operation state now with ⟨outcome, next⟩
  rw [hanswer] at hstop
  cases outcome with
  | ok a => rfl
  | error e =>
    cases left with
    | zero => rfl
    | succ left => exact if_neg (Bool.eq_false_iff.1 (hstop e rfl))

/-- An attempt that fails and is followed by others. -/
theorem executeFrom_of_error {e : ε} (herror : (operation state now).1 = .error e)
    (hretry : p.shouldRetry e attempt = true) :
    p.executeFrom operation (left + 1) attempt now state =
      let rest := p.executeFrom operation left (attempt + 1)
        (Instant.deadline now (p.delay attempt)) (operation state now).2
      { rest with calls := now :: rest.calls } := by
  rw [executeFrom.eq_def]
  dsimp only
  rcases hanswer : operation state now with ⟨outcome, next⟩
  rw [hanswer] at herror
  obtain rfl : outcome = .error e := herror
  exact if_pos hretry

/-! ## The loop -/

/-- The loop as it stands, from a round on: `count` attempts have failed.  There is no round after
one in which the count overflows. -/
inductive Loops (p : RetryPolicy) (operation : σ → Instant → Except ε α × σ) :
    UInt32 → Instant → σ → Run σ ε α → Prop
  | stop {count : UInt32} {now : Instant} {state : σ}
      (hstop : ∀ e, (operation state now).1 = .error e → p.shouldRetry e count.toNat = false) :
      Loops p operation count now state
        ⟨(operation state now).1, [now], now, (operation state now).2⟩
  | again {count : UInt32} {now : Instant} {state : σ} {e : ε} {rest : Run σ ε α}
      (herror : (operation state now).1 = .error e) (hretry : p.shouldRetry e count.toNat = true)
      (hcount : count.toNat + 1 < UInt32.size)
      (hrest : Loops p operation (count + 1) (Instant.deadline now (p.delay count.toNat))
        (operation state now).2 rest) :
      Loops p operation count now state { rest with calls := now :: rest.calls }

theorem toNat_count_add_one {count : UInt32} (h : count.toNat + 1 < UInt32.size) :
    (count + 1).toNat = count.toNat + 1 :=
  (UInt32.toNat_add count 1).trans (Nat.mod_eq_of_lt h)

/-- **The loop ends**, and its count does not overflow. -/
theorem loops_executeFrom (hretries : p.maxRetries < UInt32.size) {count : UInt32}
    (hleft : count.toNat + left = p.maxRetries) (now : Instant) (state : σ) :
    p.Loops operation count now state (p.executeFrom operation left count.toNat now state) := by
  induction left generalizing count now state with
  | zero =>
    have hstop : ∀ e, (operation state now).1 = .error e → p.shouldRetry e count.toNat = false :=
      fun e _ => shouldRetry_of_le hleft.ge e
    rw [executeFrom_of_stop hstop]
    exact .stop hstop
  | succ left ih =>
    by_cases hagain : ∃ e, (operation state now).1 = .error e ∧ p.shouldRetry e count.toNat = true
    · obtain ⟨e, herror, hretry⟩ := hagain
      have hle : count.toNat + 1 ≤ p.maxRetries := by
        rw [← hleft]
        exact Nat.add_le_add_left (Nat.succ_pos left) _
      have hlt : count.toNat + 1 < UInt32.size := Nat.lt_of_le_of_lt hle hretries
      have hnext : (count + 1).toNat + left = p.maxRetries := by
        rw [toNat_count_add_one hlt, ← hleft, Nat.add_assoc, Nat.add_comm 1]
      rw [executeFrom_of_error herror hretry]
      refine .again herror hretry hlt ?_
      rw [← toNat_count_add_one hlt]
      exact ih hnext _ _
    · have hstop : ∀ e, (operation state now).1 = .error e →
          p.shouldRetry e count.toNat = false := by
        intro e herror
        by_contra hretry
        exact hagain ⟨e, herror, Bool.eq_true_of_not_eq_false hretry⟩
      rw [executeFrom_of_stop hstop]
      exact .stop hstop

/-- The loop has one result. -/
theorem Loops.unique {count : UInt32} {run other : Run σ ε α}
    (h : p.Loops operation count now state run) (hother : p.Loops operation count now state other) :
    other = run := by
  induction h generalizing other with
  | stop hstop =>
    cases hother with
    | stop _ => rfl
    | again herror hretry _ _ =>
      rw [hstop _ herror] at hretry
      cases hretry
  | again herror hretry _ _ ih =>
    cases hother with
    | stop hstop =>
      rw [hstop _ herror] at hretry
      cases hretry
    | again _ _ _ hrest => rw [ih hrest]

/-- **The result of the loop** is what `execute` gives. -/
theorem loops_iff (hretries : p.maxRetries < UInt32.size) {run : Run σ ε α} :
    p.Loops operation 0 now state run ↔ run = p.execute operation now state := by
  have hloops : p.Loops operation 0 now state (p.execute operation now state) :=
    loops_executeFrom hretries (Nat.zero_add p.maxRetries) now state
  constructor
  · exact hloops.unique
  · rintro rfl
    exact hloops

/-- **The attempts that are made**, up to the first one after which the loop may stop. -/
theorem Loops.exists_eq_runOf {count : UInt32} {run : Run σ ε α}
    (h : p.Loops operation count now state run) :
    ∃ last, run = p.runOf operation ⟨count.toNat, now, state⟩ last ∧
      (∀ i < last, ∃ e,
        ((p.next operation)^[i] ⟨count.toNat, now, state⟩).outcome operation = .error e ∧
          p.shouldRetry e (count.toNat + i) = true) ∧
      ∀ e, ((p.next operation)^[last] ⟨count.toNat, now, state⟩).outcome operation = .error e →
        p.shouldRetry e (count.toNat + last) = false := by
  induction h with
  | stop hstop => exact ⟨0, rfl, fun i hi => absurd hi (Nat.not_lt_zero i), hstop⟩
  | @again count now state e rest herror hretry hcount hrest ih =>
    obtain ⟨last, rfl, hbefore, hlast⟩ := ih
    have hnext : p.next operation ⟨count.toNat, now, state⟩ = ⟨(count + 1).toNat,
        Instant.deadline now (p.delay count.toNat), (operation state now).2⟩ := by
      rw [next, toNat_count_add_one hcount]
    have hnumber : ∀ i, count.toNat + (i + 1) = (count + 1).toNat + i := by
      intro i
      rw [toNat_count_add_one hcount, Nat.add_assoc, Nat.add_comm 1]
    refine ⟨last + 1, ?_, fun i hi => ?_, ?_⟩
    · rw [runOf_succ, hnext]
    · cases i with
      | zero => exact ⟨e, herror, hretry⟩
      | succ i =>
        rw [Function.iterate_succ_apply, hnext, hnumber]
        exact hbefore i (Nat.lt_of_succ_lt_succ hi)
    · rw [Function.iterate_succ_apply, hnext, hnumber]
      exact hlast

/-- **Which attempt is the last**: the first one that gives something, or fails for good, or is the
last of all that there are. -/
theorem exists_execute_eq (p : RetryPolicy) (operation : σ → Instant → Except ε α × σ)
    (hretries : p.maxRetries < UInt32.size) (now : Instant) (state : σ) :
    ∃ last, p.execute operation now state = p.runOf operation ⟨0, now, state⟩ last ∧
      IsLeast {i | (∃ a, ((p.next operation)^[i] ⟨0, now, state⟩).outcome operation = .ok a) ∨
        (∃ e, ((p.next operation)^[i] ⟨0, now, state⟩).outcome operation = .error e ∧
          Retryable.isRetryable e = false) ∨
        i = p.maxRetries} last := by
  have hloops : p.Loops operation 0 now state (p.execute operation now state) :=
    (loops_iff hretries).2 rfl
  obtain ⟨last, hrun, hbefore, hstop⟩ := hloops.exists_eq_runOf
  simp only [UInt32.toNat_zero, Nat.zero_add] at hrun hbefore hstop
  have hle : last ≤ p.maxRetries := by
    by_contra hlt
    obtain ⟨e, -, hretry⟩ := hbefore p.maxRetries (Nat.lt_of_not_le hlt)
    rw [shouldRetry_of_le (Nat.le_refl _)] at hretry
    cases hretry
  refine ⟨last, hrun, ?_, fun i hi => ?_⟩
  · cases houtcome : ((p.next operation)^[last] ⟨0, now, state⟩).outcome operation with
    | ok a => exact .inl ⟨a, houtcome⟩
    | error e =>
      rcases Nat.eq_or_lt_of_le hle with heq | hlt
      · exact .inr (.inr heq)
      · have hfinal := hstop e houtcome
        rw [shouldRetry_of_lt hlt] at hfinal
        exact .inr (.inl ⟨e, houtcome, hfinal⟩)
  · by_contra hlt
    have hlt : i < last := Nat.lt_of_not_le hlt
    obtain ⟨e, herror, hretry⟩ := hbefore i hlt
    rw [shouldRetry_of_lt (Nat.lt_of_lt_of_le hlt hle)] at hretry
    rcases hi with ⟨a, ha⟩ | ⟨other, hother, hfinal⟩ | rfl
    · rw [herror] at ha
      cases ha
    · rw [herror] at hother
      cases hother
      rw [hretry] at hfinal
      cases hfinal
    · exact Nat.not_lt.2 hle hlt

end RetryPolicy

/-! ## Without random parts -/

namespace Backoff

variable {τ : Type} [Scalar τ] {b : Backoff τ}

/-- Waits are whole milliseconds. -/
theorem dvd_delay (b : Backoff τ) (chance : τ) (attempt : Nat) :
    nanosPerMilli ∣ b.delay chance attempt := Nat.dvd_mul_left _ _

/-- Without random parts a wait does not depend on chance. -/
theorem delay_of_steady (hjitter : b.jitter = false) (chance other : τ) (attempt : Nat) :
    b.delay chance attempt = b.delay other attempt := by
  rw [delay, delay, hjitter]
  rfl

variable {σ ε α : Type} [Retryable ε]

/-- **What a backoff without random parts does.**  The loop has one result, and its count does not
overflow, with as many retries as there can be.  The last attempt is the first one that gives
something, or fails for good, or has number `b.maxRetries`; what it gives comes out.  After each
attempt but the last there is a wait, just as long as the backoff says; between whole milliseconds
it all takes the sum of the waits, and otherwise what a timer for that sum takes. -/
theorem execute_of_steady (hjitter : b.jitter = false) (hretries : b.maxRetries < UInt32.size)
    (chances : Nat → τ) (operation : σ → Instant → Except ε α × σ) (now : Instant) (state : σ) :
    let p := b.policy chances
    let run := p.execute operation now state
    let trial := fun i => (p.next operation)^[i] ⟨0, now, state⟩
    (∀ other, p.Loops operation 0 now state other ↔ other = run) ∧
      ∃ last,
        IsLeast {i | (∃ a, (trial i).outcome operation = .ok a) ∨
          (∃ e, (trial i).outcome operation = .error e ∧ Retryable.isRetryable e = false) ∨
          i = b.maxRetries} last ∧
        run.outcome = (trial last).outcome operation ∧
        run.calls = (List.range (last + 1)).map (fun i => (trial i).now) ∧
        run.finished = (trial last).now ∧
        (∀ chance i, (trial (i + 1)).now = Instant.deadline (trial i).now (b.delay chance i)) ∧
        (∀ chance, 0 < last →
          run.finished = Instant.deadline now (∑ i ∈ Finset.range last, b.delay chance i)) ∧
        ∀ chance, nanosPerMilli ∣ now →
          run.finished = now + ∑ i ∈ Finset.range last, b.delay chance i := by
  intro p run trial
  obtain ⟨last, hrun, hleast⟩ := p.exists_execute_eq operation hretries now state
  have hrun : run = p.runOf operation ⟨0, now, state⟩ last := hrun
  have hdelay : ∀ chance i, p.delay i = b.delay chance i := fun chance i =>
    delay_of_steady hjitter (chances i) chance i
  have htotal : ∀ chance, 0 < last →
      run.finished = Instant.deadline now (∑ i ∈ Finset.range last, b.delay chance i) := by
    intro chance hlast
    obtain ⟨i, rfl⟩ := Nat.exists_eq_add_one_of_ne_zero (Nat.ne_of_gt hlast)
    rw [hrun]
    refine (RetryPolicy.now_iterate_next (fun i => b.dvd_delay (chances i) i) i).trans ?_
    simp only [Nat.zero_add, hdelay chance]
  refine ⟨fun other => RetryPolicy.loops_iff hretries, last, hleast, ?_, ?_, ?_, ?_, htotal, ?_⟩
  · rw [hrun]
    rfl
  · rw [hrun]
    rfl
  · rw [hrun]
    rfl
  · intro chance i
    rw [← hdelay chance]
    refine (RetryPolicy.now_iterate_next_succ i).trans ?_
    rw [Nat.zero_add]
  · intro chance hnow
    rcases Nat.eq_zero_or_pos last with rfl | hlast
    · rw [hrun]
      rfl
    · rw [htotal chance hlast]
      exact Instant.deadline_eq hnow (Finset.dvd_sum fun i _ => b.dvd_delay chance i)

/-- As many retries as there can be, and no random parts. -/
def patient : Backoff ℚ := { usual with maxRetries := UInt32.size - 1, jitter := false }

/-- An operation that fails twice, and then gives the number of the calls before. -/
def lateScan (calls : Nat) (_ : Instant) : Except WatchError Nat × Nat :=
  (if calls < 2 then .error (.initialScan ⟨[]⟩ .busy) else .ok calls, calls + 1)

/-- The third attempt is the last one, after waits of one and of two tenths of a second. -/
theorem execute_of_patient :
    let p := patient.policy fun _ => 0
    let run := p.execute lateScan 0 0
    patient.jitter = false ∧ patient.maxRetries < UInt32.size ∧ p.Loops lateScan 0 0 0 run ∧
      run.outcome = .ok 2 ∧ run.calls = [0, Duration.ofMillis 100, Duration.ofMillis 300] := by
  have hretries : patient.maxRetries < UInt32.size := by decide
  obtain ⟨hloops, -⟩ := execute_of_steady rfl hretries (fun _ => 0) lateScan 0 0
  exact ⟨rfl, hretries, (hloops _).2 rfl, by decide +kernel, by decide +kernel⟩

end Backoff

end CertRotation
