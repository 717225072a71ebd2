import CertRotation.Proofs.Number.Exact
import CertRotation.Proofs.Watch.Clock

/-!
# No change waits for two intervals

Under steady traffic the timer of the changes is set anew again and again and never goes off, and
the limiter is asked only when a change comes in.  Together they bound the time for which a change
waits.  As long as the limiter grants nothing it keeps all that it earns, so a change that waits has
come in less than one interval before the last change did; and the timer goes off one interval after
the last change.

* `LiveNotifier.IsTimely` — the invariant: what waits is what came in last, and the tokens of the
  limiter tell how long it has waited;
* `LiveNotifier.IsTimely.lt` — so it has waited for less than two intervals;
* `LiveNotifier.IsTimely.step`, `LiveNotifier.latency_of_runs` — every step keeps the invariant, and
  so does every run.
-/

set_option autoImplicit false

namespace CertRotation

namespace LiveNotifier

variable {n : Notifier (Bucket ℚ)} {h es : NotifierHistory} {s t : LiveNotifier (Bucket ℚ)}
  {prompt : Bool} {gone waiting : List (Instant × Change)}

/-- Of the changes that came in, `gone` have left and `waiting` are pending, and since the first of
those came the limiter has kept what it earned, which is less than a token. -/
structure IsTimely (n : Notifier (Bucket ℚ)) (h : NotifierHistory)
    (gone waiting : List (Instant × Change)) (s : LiveNotifier (Bucket ℚ)) : Prop where
  onTime : s.IsOnTime n h
  pushes : h.pushes = gone ++ waiting
  pending : s.notifier.changes.pending = n.fileAll (waiting.map Prod.snd)
  burst : 1 ≤ s.notifier.changes.limiter.burst
  interval : s.notifier.changes.limiter.interval = n.interval
  nonneg : 0 ≤ s.notifier.changes.limiter.tokens
  asked : waiting ≠ [] → s.notifier.changes.limiter.tokens < 1 ∧
    ∀ came ∈ h.pushes.getLast?, s.notifier.changes.limiter.refilledAt = came.1
  earned : ∀ p ∈ waiting, p.1 ≤ s.notifier.changes.limiter.refilledAt ∧
    ((s.notifier.changes.limiter.refilledAt - p.1 : ℕ) : ℚ) ≤
      s.notifier.changes.limiter.tokens * n.interval

/-- **What waits has waited for less than two intervals**: for less than one when the last change
came in, and since then for one at most. -/
theorem IsTimely.lt (hs : s.IsTimely n h gone waiting) (hinterval : 0 < n.interval)
    (hmillis : nanosPerMilli ∣ n.interval) (hwhole : ∀ p ∈ h.pushes, nanosPerMilli ∣ p.1) :
    ∀ p ∈ waiting, s.now < p.1 + 2 * n.interval := by
  intro p hp
  have hwaiting : waiting ≠ [] := List.ne_nil_of_mem hp
  obtain ⟨htokens, hasked⟩ := hs.asked hwaiting
  obtain ⟨hle, hearned⟩ := hs.earned p hp
  rcases hs.onTime.cases_nextDue? with ⟨-, hnil⟩ | ⟨task, came, -, hnext, hcame, hdue⟩
  · rw [hs.pending, Notifier.fileAll_eq_nil_iff, List.map_eq_nil_iff] at hnil
    exact absurd hnil hwaiting
  · have hlast : s.now ≤ s.notifier.changes.limiter.refilledAt + n.interval := by
      have hcameWhole := hwhole came (List.mem_of_getLast? hcame)
      rw [hasked came hcame, ← Instant.deadline_eq hcameWhole hmillis, ← hdue]
      exact hs.onTime.ahead _ hnext
    have hshort : ((s.notifier.changes.limiter.refilledAt - p.1 : ℕ) : ℚ) < n.interval :=
      hearned.trans_lt (mul_lt_of_lt_one_left (Nat.cast_pos.2 hinterval) htokens)
    -- The sum is one of natural numbers, whatever they count.
    have hsum : ∀ now asked came interval : ℕ, came ≤ asked → now ≤ asked + interval →
        asked - came < interval → now < came + 2 * interval := by omega
    exact hsum _ _ _ _ hle hlast (Nat.cast_lt.1 hshort)

theorem isTimely_of_new {disk : Disk} {c : NotifierConfig} {created : Instant} (start : Instant)
    (hburst : 1 ≤ c.throttle.burst)
    (hnew : Notifier.new disk c (Bucket.new c.throttle.interval c.throttle.burst created) = .ok n) :
    IsTimely n [] [] [] ⟨start, n⟩ := by
  obtain ⟨-, hchanges, -, -⟩ := Notifier.of_new hnew
  have hinterval := Notifier.interval_of_new hnew
  refine ⟨isOnTime_of_new start hnew, rfl, ?_, ?_, ?_, ?_, fun hnil => absurd rfl hnil, nofun⟩
  · rw [hchanges]
    rfl
  · rw [hchanges]
    exact hburst
  · rw [hchanges, hinterval]
    rfl
  · rw [hchanges]
    exact Nat.cast_nonneg _

/-- While something waits, the limiter was asked last when the last change came in. -/
theorem IsTimely.refilledAt_le (hs : s.IsTimely n h gone waiting) (hwaiting : waiting ≠ []) :
    s.notifier.changes.limiter.refilledAt ≤ s.now := by
  have hpushes : h.pushes ≠ [] := by
    rw [hs.pushes]
    exact List.append_ne_nil_of_right_ne_nil _ hwaiting
  rw [(hs.asked hwaiting).2 _ (List.getLast?_eq_some_getLast hpushes)]
  exact hs.onTime.past _ (List.getLast_mem hpushes)

/-- A change that comes in leaves with all that waits, or it waits and the limiter keeps what it
earned. -/
theorem IsTimely.push (hs : s.IsTimely n h gone waiting) (hinterval : 0 < n.interval)
    (change : Change) (hready : prompt → s.IsIdle) :
    ∃ gone' waiting', IsTimely n
      (h ++ [(.push s.now true change, (s.notifier.pushChange s.now true change).2)]) gone' waiting'
      { s with notifier := (s.notifier.pushChange s.now true change).1 } := by
  have honTime := hs.onTime.step (.push change hready)
  obtain ⟨granted, tokens, hanswer, hnonneg, hkept⟩ := Bucket.exists_tryAcquire_eq hs.burst
    (by rw [hs.interval]; exact hinterval) hs.nonneg s.now
  have hpending := Notifier.pending_pushChange change hs.onTime.timed.filed hanswer
  have hlimiter := Notifier.limiter_pushChange change hs.onTime.timed.filed hanswer
  have hpushes : NotifierHistory.pushes
      (h ++ [(.push s.now true change, (s.notifier.pushChange s.now true change).2)]) =
        gone ++ waiting ++ [(s.now, change)] := by
    rw [NotifierHistory.pushes_push, hs.pushes]
  have hburst : 1 ≤ (s.notifier.pushChange s.now true change).1.changes.limiter.burst := by
    rw [hlimiter]
    exact hs.burst
  have hsame : (s.notifier.pushChange s.now true change).1.changes.limiter.interval =
      n.interval := by
    rw [hlimiter]
    exact hs.interval
  have hpositive : 0 ≤ (s.notifier.pushChange s.now true change).1.changes.limiter.tokens := by
    rw [hlimiter]
    exact hnonneg
  cases granted with
  | true =>
    exact ⟨gone ++ waiting ++ [(s.now, change)], [], honTime, by rw [hpushes, List.append_nil],
      hpending, hburst, hsame, hpositive, fun hnil => absurd rfl hnil, nofun⟩
  | false =>
    obtain ⟨hlt, hkept⟩ := hkept rfl
    rw [hs.interval] at hkept
    refine ⟨gone, waiting ++ [(s.now, change)], honTime, by rw [hpushes, List.append_assoc], ?_,
      hburst, hsame, hpositive, fun _ => ?_, fun p hp => ?_⟩
    · rw [List.map_append, List.map_singleton, Notifier.fileAll_concat, ← hs.pending,
        ← Notifier.rootFor_congr hs.onTime.roots]
      exact hpending
    · rw [hlimiter, hpushes, List.getLast?_concat]
      refine ⟨hlt, fun came hcame => ?_⟩
      cases hcame
      rfl
    · rw [hlimiter]
      dsimp only
      rw [hkept]
      rcases List.mem_append.1 hp with hp | hp
      · obtain ⟨hle, hearned⟩ := hs.earned p hp
        have hasked := hs.refilledAt_le (List.ne_nil_of_mem hp)
        refine ⟨hle.trans hasked, ?_⟩
        rw [← Nat.sub_add_sub_cancel hasked hle, Nat.cast_add, add_comm]
        exact add_le_add_left hearned _
      · obtain rfl := List.mem_singleton.1 hp
        refine ⟨Nat.le_refl _, ?_⟩
        rw [Nat.sub_self, Nat.cast_zero]
        exact add_nonneg (mul_nonneg hs.nonneg (Nat.cast_nonneg _)) (Nat.cast_nonneg _)

/-- **Every step keeps what waits timely.** -/
theorem IsTimely.step (hs : s.IsTimely n h gone waiting) (hinterval : 0 < n.interval)
    (hstep : Step prompt s es t) : ∃ gone' waiting', t.IsTimely n (h ++ es) gone' waiting' := by
  have honTime := hs.onTime.step hstep
  cases hstep with
  | wait now hnow hdue =>
    rw [List.append_nil] at honTime ⊢
    exact ⟨gone, waiting, honTime, hs.pushes, hs.pending, hs.burst, hs.interval, hs.nonneg,
      hs.asked, hs.earned⟩
  | push change hready => exact hs.push hinterval change hready
  | fire hdue =>
    obtain ⟨came, -, -, heq⟩ := hs.onTime.fire_eq hdue
    have hpushes : NotifierHistory.pushes (h ++ [(.advance s.now, (s.notifier.fireDue s.now).2)]) =
        gone ++ waiting := by
      rw [NotifierHistory.pushes_advance, hs.pushes]
    refine ⟨gone ++ waiting, [], honTime, by rw [hpushes, List.append_nil], ?_, ?_, ?_, ?_,
      fun hnil => absurd rfl hnil, nofun⟩
    · rw [heq]
      rfl
    · rw [heq]
      exact hs.burst
    · rw [heq]
      exact hs.interval
    · rw [heq]
      exact hs.nonneg

/-- **No change waits for two intervals.**  However dense the traffic is that sets the timer anew,
in every state of every run the changes that are pending are the last ones that came in, and each of
them did so less than two intervals ago. -/
theorem latency_of_runs {disk : Disk} {c : NotifierConfig} {created start : Instant}
    (hnew : Notifier.new disk c (Bucket.new c.throttle.interval c.throttle.burst created) = .ok n)
    (hburst : 1 ≤ c.throttle.burst) (hinterval : 0 < c.throttle.interval)
    (hmillis : nanosPerMilli ∣ c.throttle.interval) (hrun : Runs prompt ⟨start, n⟩ h s)
    (hwhole : ∀ p ∈ h.pushes, nanosPerMilli ∣ p.1) :
    ∃ gone waiting, h.pushes = gone ++ waiting ∧
      s.notifier.changes.pending = n.fileAll (waiting.map Prod.snd) ∧
      ∀ p ∈ waiting, s.now < p.1 + 2 * c.throttle.interval := by
  have hsame := Notifier.interval_of_new hnew
  rw [← hsame] at hinterval hmillis
  obtain ⟨gone, waiting, htimely⟩ : ∃ gone waiting, s.IsTimely n h gone waiting := by
    clear hwhole
    induction hrun with
    | rest => exact ⟨[], [], isTimely_of_new start hburst hnew⟩
    | step _ hstep ih =>
      obtain ⟨gone, waiting, htimely⟩ := ih
      exact htimely.step hinterval hstep
  refine ⟨gone, waiting, htimely.pushes, htimely.pending, ?_⟩
  rw [← hsame]
  exact htimely.lt hinterval hmillis hwhole

/-- A notifier for a directory that may deliver once in ten milliseconds. -/
def steady : NotifierConfig := { Notifier.panicking with throttle := ⟨Duration.ofMillis 10, 1⟩ }

/-- It is new at the start of the clock. -/
def steadyNotifier : Notifier (Bucket ℚ) :=
  let limiter := Bucket.new steady.throttle.interval steady.throttle.burst 0
  ⟨[⟨[47, 114]⟩], steady.throttle.interval, steady.handlers, .new [] limiter, .new [] limiter,
    ⟨[⟨[47, 114]⟩], [⟨[47, 114]⟩], false, some fun _ => .returned, some fun _ => .returned, false⟩⟩

/-- Two changes wait for a timer that the second of them has set anew, the first of them for longer
than an interval. -/
theorem latency_of_rearmed : ∃ (n : Notifier (Bucket ℚ)) (h : NotifierHistory)
    (s : LiveNotifier (Bucket ℚ)),
    Notifier.new Notifier.emptyDirectory steady
        (Bucket.new steady.throttle.interval steady.throttle.burst 0) = .ok n ∧
      Runs false ⟨0, n⟩ h s ∧ s.now = Duration.ofMillis 19 ∧
      h.pushes.map Prod.fst = [0, Duration.ofMillis 5, Duration.ofMillis 9] ∧
      s.notifier.changes.pending = [(⟨[47, 114]⟩, [Notifier.changeOf 98, Notifier.changeOf 99])] ∧
      ∃ gone waiting, h.pushes = gone ++ waiting ∧
        s.notifier.changes.pending = n.fileAll (waiting.map Prod.snd) ∧
        ∀ p ∈ waiting, s.now < p.1 + 2 * steady.throttle.interval := by
  have hready : ∀ s : LiveNotifier (Bucket ℚ), false = true → s.IsIdle :=
    fun _ hfalse => absurd hfalse Bool.false_ne_true
  have hnew : Notifier.new Notifier.emptyDirectory steady
      (Bucket.new steady.throttle.interval steady.throttle.burst 0) = .ok steadyNotifier := rfl
  have hstart : Runs false ⟨0, steadyNotifier⟩ [] ⟨0, steadyNotifier⟩ := .rest
  have hrun := hstart.step (.push (Notifier.changeOf 97) (hready _))
    |>.step (.wait (Duration.ofMillis 5) (by decide) (by decide +kernel))
    |>.step (.push (Notifier.changeOf 98) (hready _))
    |>.step (.wait (Duration.ofMillis 9) (by decide) (by decide +kernel))
    |>.step (.push (Notifier.changeOf 99) (hready _))
    |>.step (.wait (Duration.ofMillis 19) (by decide) (by decide +kernel))
  refine ⟨_, _, _, hnew, hrun, rfl, rfl, by decide +kernel, ?_⟩
  exact latency_of_runs hnew (by decide) (by decide) (by decide) hrun (by decide +kernel)

end LiveNotifier

end CertRotation
