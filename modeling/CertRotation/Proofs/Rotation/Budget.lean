import CertRotation.Proofs.Backoff.Attempts
import CertRotation.Proofs.Rotation.Failures
import CertRotation.Proofs.Rotation.Serial
import CertRotation.Proofs.Watch.Clock

/-!
# How long a reload holds out

A reload that is let in makes its first attempt at once and the others after the waits of its
policy, whatever else happens meanwhile: the disk may change, reports may come in, others may ask
for reloads.  It ends with the first attempt that gives material.  As every failure is worth another
attempt, nothing else ends it before its attempts are used up.

* `LiveRotator.Step.aside_or` — what a step can do to the queue;
* `TimedAttempt`, `LiveRotator.Traces` — runs, with the states in which attempts were made;
* `LiveRotator.remaining` — the rest of a reload, as its policy tries an operation;
* `IsPaced` — attempts that come one after the other in the rhythm of a policy;
* `IsUnderWay`, `IsOver` — a reload that goes on, and one that has ended;
* `IsUnderWay.step`, `IsUnderWay.canEnd` — it goes on or ends, and can always be ended;
* `LiveRotator.budget_of_traces` — **a reload holds out for its whole budget**.
-/

set_option autoImplicit false

namespace CertRotation

variable {L : Type}

/-! ## The queue -/

namespace ReloadQueue

variable {q : ReloadQueue} {reload : RunningReload}

/-- A reload that comes to the queue is let in if no other one runs. -/
theorem running_enter (q : ReloadQueue) (now : Instant) (requester : Requester) :
    (q.enter now requester).running = some (q.running.getD ⟨requester, 0, now⟩) := by
  rw [enter]
  cases q.running <;> rfl

theorem running_pause (hrunning : q.running = some reload) (due : Instant) :
    (q.pause due).running = some ⟨reload.requester, reload.failed + 1, due⟩ := by
  rw [pause, hrunning]
  rfl

/-- When a reload is over, the next one is let in. -/
theorem running_leave {now : Instant} (hrunning : (q.leave now).running = some reload) :
    reload.failed = 0 ∧ reload.due = now := by
  rw [leave] at hrunning
  split at hrunning
  · cases hrunning
  · cases hrunning
    exact ⟨rfl, rfl⟩

end ReloadQueue

namespace Rotator

variable {r r' : Rotator L} {es : RotatorHistory} {reload : RunningReload} {disk : Disk}
  {now : Instant}

theorem Moves.running_eq (hmoves : r.Moves es r') (hes : ∀ e ∈ es, e.IsAside) :
    r'.queue.running = r.queue.running := by
  cases hmoves with
  | quiet directory watcher => rfl
  | relayed changes _ => rfl
  | dropped notifier change => rfl
  | entered _ _ count now requester => cases (hes _ List.mem_cons_self).2
  | stopped => rfl
  | listening he => rfl
  | paused hrunning _ e due => cases (hes _ List.mem_cons_self).1
  | completed hrunning houtcome _ now => cases (hes _ List.mem_cons_self).1

/-- Nothing changes the policy. -/
theorem Moves.policy_eq (hmoves : r.Moves es r') : r'.policy = r.policy := by
  cases hmoves with
  | quiet directory watcher => rfl
  | relayed changes _ => rfl
  | dropped notifier change => rfl
  | entered _ _ count now requester => rfl
  | stopped => rfl
  | listening he => rfl
  | paused hrunning _ e due => rfl
  | completed hrunning houtcome _ now => rfl

theorem shouldRetry_of_error {e : CertError}
    (houtcome : (r.directory.assemble r.readers disk).1 = .error e)
    (hleft : reload.failed < r.policy.maxRetries) :
    r.policy.shouldRetry e reload.failed = true := by
  rw [RetryPolicy.shouldRetry_of_lt hleft, CertDirectory.isRetryable_of_assemble houtcome]

/-- **A failed attempt is followed by another**, after the wait of the policy, as long as retries
are left. -/
theorem attempt_of_error (hrunning : r.queue.running = some reload) {e : CertError}
    (houtcome : (r.directory.assemble r.readers disk).1 = .error e)
    (hleft : reload.failed < r.policy.maxRetries) :
    r.attempt disk now = ({ r with
      directory := (r.directory.assemble r.readers disk).2
      queue := r.queue.pause (Instant.deadline now (r.policy.delay reload.failed)) }, none) := by
  have hretry := shouldRetry_of_error houtcome hleft
  rw [attempt, hrunning]
  rcases hanswer : r.directory.assemble r.readers disk with ⟨outcome, directory⟩
  rw [hanswer] at houtcome
  cases houtcome
  exact if_pos hretry

/-- An attempt that gives material, or after which no retries are left, is the last. -/
theorem exists_attempt_eq (hrunning : r.queue.running = some reload) {outcome : ReloadOutcome}
    (houtcome : (r.directory.assemble r.readers disk).1 = outcome)
    (hlast : (∃ material, outcome = .ok material) ∨ r.policy.maxRetries ≤ reload.failed) :
    ∃ c, (r.attempt disk now).2 = some c ∧ c.requester = reload.requester ∧
      c.outcome = outcome := by
  rw [attempt, hrunning]
  rcases hanswer : r.directory.assemble r.readers disk with ⟨answer, directory⟩
  rw [hanswer] at houtcome
  obtain rfl : answer = outcome := houtcome
  cases answer with
  | ok material => exact ⟨_, rfl, rfl, rfl⟩
  | error e =>
    have hleft : r.policy.maxRetries ≤ reload.failed := by
      refine hlast.resolve_left ?_
      rintro ⟨material, hmaterial⟩
      cases hmaterial
    dsimp only
    rw [RetryPolicy.shouldRetry_of_le hleft, if_neg Bool.false_ne_true]
    exact ⟨_, rfl, rfl, rfl⟩

end Rotator

namespace LiveRotator

variable [Limiter L] {s t u : LiveRotator L} {h es : RotatorHistory} {reload : RunningReload}

/-- **What a step can do to the queue**: nothing, or a reload comes to it, or the one that runs
makes an attempt. -/
theorem Step.aside_or (hstep : Step t es u) : (∀ e ∈ es, e.IsAside) ∨
    (∃ count requester, es = [.entered requester] ∧ u.now = t.now ∧
      u.rotator.queue = { t.rotator.queue with scheduled := count }.enter t.now requester) ∨
    ∃ reload, t.rotator.queue.running = some reload ∧ reload.due ≤ t.now ∧
      es = [.attempted reload (t.rotator.directory.assemble t.rotator.readers t.disk).1
        (t.rotator.attempt t.disk t.now).2] ∧
      u = t.become (t.rotator.attempt t.disk t.now).1 := by
  cases hstep with
  | edit disk => exact .inl (List.forall_mem_nil _)
  | wait hnow => exact .inl (List.forall_mem_nil _)
  | push runtime change => exact .inl (List.forall_mem_singleton.2 ⟨rfl, rfl⟩)
  | toDirectory report => exact .inl (List.forall_mem_nil _)
  | toNotifier report => exact .inl (List.forall_mem_map.2 fun _ _ => ⟨rfl, rfl⟩)
  | failure e => exact .inl (List.forall_mem_nil _)
  | fire => exact .inl (List.forall_mem_nil _)
  | timer htask hdue => exact .inl (List.forall_mem_nil _)
  | errorTimer htask hdue => exact .inl (List.forall_mem_nil _)
  | enter hscheduled => exact .inr (.inl ⟨_, _, rfl, rfl, rfl⟩)
  | call => exact .inr (.inl ⟨t.rotator.queue.scheduled, _, rfl, rfl, rfl⟩)
  | start hwatch =>
    obtain ⟨directory, watcher, rfl⟩ := Rotator.exists_eq_of_watch hwatch
    exact .inr (.inl ⟨t.rotator.queue.scheduled, _, rfl, rfl, rfl⟩)
  | startFails hwatch => exact .inl (List.forall_mem_nil _)
  | stop => exact .inl (List.forall_mem_singleton.2 ⟨rfl, rfl⟩)
  | subscribe callback => exact .inl (List.forall_mem_singleton.2 ⟨rfl, rfl⟩)
  | exchange subscriber callback => exact .inl (List.forall_mem_singleton.2 ⟨rfl, rfl⟩)
  | attempt hrunning hdue => exact .inr (.inr ⟨_, hrunning, hdue, rfl, rfl⟩)

/-- **A reload that is let in** has all its attempts before it, and the first is due at once. -/
theorem Step.lets_in (hstep : Step s es t)
    (hlet : s.rotator.queue.running = none ∨ es.completions ≠ [])
    (hrunning : t.rotator.queue.running = some reload) :
    reload.failed = 0 ∧ reload.due = t.now := by
  rcases hstep.aside_or with haside | ⟨count, requester, rfl, hnow, hqueue⟩ |
    ⟨before, hbefore, -, rfl, rfl⟩
  · have hsame := hstep.moves.running_eq haside
    have hnone : es.completions = [] :=
      RotatorHistory.completions_eq_nil fun e he => (haside e he).completion?_eq_none
    rw [← hsame, hrunning] at hlet
    exact absurd hnone (hlet.resolve_left (Option.some_ne_none _))
  · have hidle : s.rotator.queue.running = none := hlet.resolve_right fun hne => hne rfl
    rw [hqueue, ReloadQueue.running_enter, hidle] at hrunning
    cases hrunning
    exact ⟨rfl, hnow.symm⟩
  · have hdone : RotatorHistory.completions [.attempted before
        (s.rotator.directory.assemble s.rotator.readers s.disk).1
        (s.rotator.attempt s.disk s.now).2] ≠ [] := by
      refine hlet.resolve_left fun hnone => ?_
      rw [hbefore] at hnone
      cases hnone
    rcases Rotator.attempt_eq hbefore s.disk s.now with
      ⟨e, due, -, hattempt⟩ | ⟨outcome, -, hattempt⟩
    · rw [hattempt] at hdone
      exact absurd rfl hdone
    · rw [hattempt] at hrunning
      exact ReloadQueue.running_leave hrunning

end LiveRotator

/-! ## Attempts in time -/

/-- An attempt, and the state in which it was made. -/
structure TimedAttempt (L : Type) where
  state : LiveRotator L
  attempt : Attempt

namespace TimedAttempt

/-- The attempt gave no material, and the reload went on. -/
def Fails (a : TimedAttempt L) : Prop :=
  (∃ e, a.attempt.outcome = .error e) ∧ a.attempt.done = none

/-- What the files and the store gave when the attempt was made. -/
def found (a : TimedAttempt L) : ReloadOutcome :=
  (a.state.rotator.directory.assemble a.state.rotator.readers a.state.disk).1

end TimedAttempt

namespace LiveRotator

/-- The attempt that a reload makes here. -/
def attemptOf (t : LiveRotator L) (reload : RunningReload) : TimedAttempt L :=
  ⟨t, ⟨reload, (t.rotator.directory.assemble t.rotator.readers t.disk).1,
    (t.rotator.attempt t.disk t.now).2⟩⟩

/-- How the rest of a reload goes if its attempts are made as soon as they are due and find the disk
as `diskAt` says. -/
def remaining (t : LiveRotator L) (reload : RunningReload) (diskAt : Instant → Disk) :
    RetryPolicy.Run CertDirectory CertError Material :=
  t.rotator.policy.executeFrom (fun d now => d.assemble t.rotator.readers (diskAt now))
    (t.rotator.policy.maxRetries - reload.failed) reload.failed (max t.now reload.due)
    t.rotator.directory

variable {t : LiveRotator L} {reload : RunningReload} {diskAt : Instant → Disk}

/-- What is left of a reload is its last attempt. -/
theorem remaining_of_last {now : Instant} (hnow : max t.now reload.due = now)
    (hlast : (∃ material,
        (t.rotator.directory.assemble t.rotator.readers (diskAt now)).1 = .ok material) ∨
      t.rotator.policy.maxRetries ≤ reload.failed) :
    t.remaining reload diskAt =
      ⟨(t.rotator.directory.assemble t.rotator.readers (diskAt now)).1, [now], now,
        (t.rotator.directory.assemble t.rotator.readers (diskAt now)).2⟩ := by
  rw [remaining, hnow]
  refine RetryPolicy.executeFrom_of_stop fun e herror => RetryPolicy.shouldRetry_of_le ?_ e
  refine hlast.resolve_left ?_
  rintro ⟨material, hmaterial⟩
  rw [herror] at hmaterial
  cases hmaterial

/-- The next attempt fails, and what is left after it are the attempts of a reload that has failed
once more. -/
theorem remaining_of_error (hrunning : t.rotator.queue.running = some reload) {now : Instant}
    (hnow : max t.now reload.due = now) {e : CertError}
    (herror : (t.rotator.directory.assemble t.rotator.readers (diskAt now)).1 = .error e)
    (hleft : reload.failed < t.rotator.policy.maxRetries) :
    t.remaining reload diskAt =
      let rest := remaining ⟨diskAt now, now, (t.rotator.attempt (diskAt now) now).1⟩
        ⟨reload.requester, reload.failed + 1,
          Instant.deadline now (t.rotator.policy.delay reload.failed)⟩ diskAt
      { rest with calls := now :: rest.calls } := by
  rw [Rotator.attempt_of_error hrunning herror hleft, remaining, remaining, hnow]
  dsimp only
  rw [Nat.max_eq_right (Instant.le_deadline now _)]
  rw [← Nat.sub_add_cancel (Nat.sub_pos_of_lt hleft), ← Nat.sub_add_eq]
  exact RetryPolicy.executeFrom_of_error herror (Rotator.shouldRetry_of_error herror hleft)

/-- The attempts among the events of a step. -/
def attemptsIn (t : LiveRotator L) (es : RotatorHistory) : List (TimedAttempt L) :=
  es.attempts.map fun a => ⟨t, a⟩

theorem attemptsIn_eq_nil {t : LiveRotator L} {es : RotatorHistory}
    (hes : ∀ e ∈ es, e.attempt? = none) : t.attemptsIn es = [] := by
  rw [attemptsIn, RotatorHistory.attempts, List.filterMap_eq_nil_iff.2 hes]
  rfl

variable [Limiter L] {s t u : LiveRotator L} {h es : RotatorHistory}

/-- From `s` a run may lead to a state, with some attempts on the way. -/
inductive Traces (s : LiveRotator L) : List (TimedAttempt L) → LiveRotator L → Prop
  | rest : Traces s [] s
  | step {tries : List (TimedAttempt L)} {es : RotatorHistory} {t u : LiveRotator L}
      (htrace : Traces s tries t) (hstep : Step t es u) : Traces s (tries ++ t.attemptsIn es) u

/-- Every run can be traced, and the attempts are those of its history. -/
theorem Runs.exists_traces (hrun : Runs s h u) :
    ∃ tries, Traces s tries u ∧ tries.map TimedAttempt.attempt = h.attempts := by
  induction hrun with
  | rest => exact ⟨[], .rest, rfl⟩
  | @step h es t u hrun hstep ih =>
    obtain ⟨tries, htrace, hattempts⟩ := ih
    refine ⟨_, htrace.step hstep, ?_⟩
    rw [List.map_append, hattempts, attemptsIn, List.map_map, RotatorHistory.attempts,
      RotatorHistory.attempts, RotatorHistory.attempts, List.filterMap_append]
    congr 1
    exact List.map_id _

theorem Traces.trans {front back : List (TimedAttempt L)} (hfront : Traces s front t)
    (hback : Traces t back u) : Traces s (front ++ back) u := by
  induction hback with
  | rest => rwa [List.append_nil]
  | step _ hstep ih =>
    rw [← List.append_assoc]
    exact ih.step hstep

/-- The next attempt can be made as soon as it is due, whatever the disk is like then. -/
theorem traces_attempt {reload : RunningReload} (hrunning : u.rotator.queue.running = some reload)
    {now : Instant} (hnow : u.now ≤ now) (hdue : reload.due ≤ now) (disk : Disk) :
    u.Traces [attemptOf ⟨disk, now, u.rotator⟩ reload]
      ⟨disk, now, (u.rotator.attempt disk now).1⟩ :=
  ((Traces.rest.step (.edit disk)).step (.wait hnow)).step (.attempt hrunning hdue)

end LiveRotator

section Reload

variable (policy : RetryPolicy) (requester : Requester) (start : Instant)

/-- **Attempts in the rhythm of a policy**, and the instant at which the next one is due.  They are
numbered from zero; the first is due at the start, and each of the others when the wait after the
one before is over.  None is made before it is due, and its outcome is what is found then. -/
inductive IsPaced : List (TimedAttempt L) → Instant → Prop
  | nil : IsPaced [] start
  | concat {tries : List (TimedAttempt L)} {due : Instant} {a : TimedAttempt L}
      (hpaced : IsPaced tries due) (hreload : a.attempt.reload = ⟨requester, tries.length, due⟩)
      (hdue : due ≤ a.state.now) (houtcome : a.attempt.outcome = a.found) :
      IsPaced (tries ++ [a]) (Instant.deadline a.state.now (policy.delay tries.length))

/-- The reload has made some attempts, all of which failed, and the next one is to come. -/
structure IsUnderWay (tries : List (TimedAttempt L)) (u : LiveRotator L) : Prop where
  paced : ∃ due, IsPaced policy requester start tries due ∧
    u.rotator.queue.running = some ⟨requester, tries.length, due⟩
  failed : ∀ a ∈ tries, a.Fails
  within : tries.length ≤ policy.maxRetries

/-- The reload has made some attempts that failed and then its last one, which gave material or left
no retries.  Its end has the outcome of the last attempt. -/
structure IsOver (tries : List (TimedAttempt L)) (last : TimedAttempt L) : Prop where
  paced : ∃ due, IsPaced policy requester start (tries ++ [last]) due
  failed : ∀ a ∈ tries, a.Fails
  within : tries.length ≤ policy.maxRetries
  ends : (∃ material, last.attempt.outcome = .ok material) ∨ tries.length = policy.maxRetries
  done : ∃ c, last.attempt.done = some c ∧ c.requester = requester ∧
    c.outcome = last.attempt.outcome

variable {policy requester start} {s t u : LiveRotator L} {es : RotatorHistory}
  {tries : List (TimedAttempt L)}

/-- The attempt of a reload that is under way: it goes on or ends with it. -/
theorem IsUnderWay.attempt (h : IsUnderWay policy requester start tries t)
    (hpolicy : t.rotator.policy = policy) {reload : RunningReload}
    (hrunning : t.rotator.queue.running = some reload) (hdue : reload.due ≤ t.now) :
    IsUnderWay policy requester start (tries ++ [t.attemptOf reload])
        (t.become (t.rotator.attempt t.disk t.now).1) ∨
      IsOver policy requester start tries (t.attemptOf reload) := by
  obtain ⟨due, hpaced, hnow⟩ := h.paced
  obtain rfl := Option.some.inj (hrunning.symm.trans hnow)
  have hnext : IsPaced policy requester start
      (tries ++ [t.attemptOf ⟨requester, tries.length, due⟩])
      (Instant.deadline t.now (policy.delay tries.length)) := hpaced.concat rfl hdue rfl
  by_cases hgoes : (∃ e, (t.rotator.directory.assemble t.rotator.readers t.disk).1 = .error e) ∧
      tries.length < policy.maxRetries
  · obtain ⟨⟨e, herror⟩, hleft⟩ := hgoes
    have hattempt : t.rotator.attempt t.disk t.now = _ :=
      Rotator.attempt_of_error hrunning herror (hpolicy ▸ hleft)
    refine .inl ⟨⟨_, hnext, ?_⟩, List.forall_mem_append.2 ⟨h.failed, ?_⟩, ?_⟩
    · rw [hattempt, ← hpolicy, List.length_append]
      exact ReloadQueue.running_pause hrunning _
    · refine List.forall_mem_singleton.2 ⟨⟨e, herror⟩, ?_⟩
      rw [LiveRotator.attemptOf, hattempt]
    · rw [List.length_append]
      exact hleft
  · have hlast : (∃ material,
        (t.rotator.directory.assemble t.rotator.readers t.disk).1 = .ok material) ∨
          policy.maxRetries ≤ tries.length := by
      cases houtcome : (t.rotator.directory.assemble t.rotator.readers t.disk).1 with
      | ok material => exact .inl ⟨material, rfl⟩
      | error e => exact .inr (Nat.le_of_not_lt fun hleft => hgoes ⟨⟨e, houtcome⟩, hleft⟩)
    refine .inr ⟨⟨_, hnext⟩, h.failed, h.within, ?_, ?_⟩
    · exact hlast.imp_right fun hle => Nat.le_antisymm h.within hle
    · exact Rotator.exists_attempt_eq hrunning rfl (hpolicy ▸ hlast)

variable [Limiter L]

/-- **A step keeps a reload under way or ends it.** -/
theorem IsUnderWay.step (h : IsUnderWay policy requester start tries t)
    (hpolicy : t.rotator.policy = policy) (hstep : t.Step es u) :
    IsUnderWay policy requester start (tries ++ t.attemptsIn es) u ∨
      ∃ last, t.attemptsIn es = [last] ∧ IsOver policy requester start tries last := by
  obtain ⟨due, hpaced, hnow⟩ := h.paced
  have hstill : t.attemptsIn es = [] → u.rotator.queue.running = t.rotator.queue.running →
      IsUnderWay policy requester start (tries ++ t.attemptsIn es) u := by
    intro hnone hsame
    rw [hnone, List.append_nil]
    exact ⟨⟨due, hpaced, hsame.trans hnow⟩, h.failed, h.within⟩
  rcases hstep.aside_or with haside | ⟨count, other, rfl, -, hqueue⟩ |
    ⟨reload, hrunning, hdue, rfl, rfl⟩
  · exact .inl (hstill (LiveRotator.attemptsIn_eq_nil fun e he => (haside e he).1)
      (hstep.moves.running_eq haside))
  · refine .inl (hstill rfl ?_)
    rw [hqueue, ReloadQueue.running_enter, hnow]
    rfl
  · exact (h.attempt hpolicy hrunning hdue).imp_right fun hover => ⟨_, rfl, hover⟩

/-- Whatever happens, a reload goes on until it ends. -/
theorem IsUnderWay.traces (h : IsUnderWay s.rotator.policy requester start [] s)
    (htrace : s.Traces tries u) :
    u.rotator.policy = s.rotator.policy ∧
      (IsUnderWay s.rotator.policy requester start tries u ∨
        ∃ front last rest, tries = front ++ last :: rest ∧
          IsOver s.rotator.policy requester start front last) := by
  induction htrace with
  | rest => exact ⟨rfl, .inl h⟩
  | step _ hstep ih =>
    obtain ⟨hpolicy, hso⟩ := ih
    refine ⟨hstep.moves.policy_eq.trans hpolicy, ?_⟩
    rcases hso with hunder | ⟨front, last, rest, rfl, hover⟩
    · rcases hunder.step hpolicy hstep with hunder | ⟨last, hlast, hover⟩
      · exact .inl hunder
      · exact .inr ⟨_, last, [], by rw [hlast], hover⟩
    · exact .inr ⟨front, last, rest ++ _, by rw [List.append_assoc, List.cons_append], hover⟩

variable (policy requester start) in
/-- The attempts that are left can be made as soon as they are due, whatever the disk is like from
now on.  With them the reload is over, and it has gone as the policy tries an operation. -/
def CanEnd (tries : List (TimedAttempt L)) (u : LiveRotator L) : Prop :=
  ∀ (reload : RunningReload) (diskAt : Instant → Disk), u.rotator.queue.running = some reload →
    ∃ more v front last, u.Traces more v ∧ tries ++ more = front ++ [last] ∧
      IsOver policy requester start front last ∧
      (∀ a ∈ more, a.state.disk = diskAt a.state.now) ∧
      more.map (fun a => a.state.now) = (u.remaining reload diskAt).calls ∧
      last.attempt.outcome = (u.remaining reload diskAt).outcome

/-- **A reload can always be brought to its end**, and it takes nothing but time. -/
theorem IsUnderWay.canEnd (h : IsUnderWay policy requester start tries u)
    (hpolicy : u.rotator.policy = policy) : CanEnd policy requester start tries u := by
  obtain ⟨left, hleft⟩ : ∃ left, policy.maxRetries < tries.length + left :=
    ⟨policy.maxRetries + 1, by omega⟩
  induction left generalizing tries u with
  | zero => exact absurd h.within (Nat.not_le.2 hleft)
  | succ left ih =>
    intro reload diskAt hrunning
    obtain ⟨due, -, hsame⟩ := h.paced
    obtain rfl := Option.some.inj (hrunning.symm.trans hsame)
    obtain ⟨now, hnow⟩ : ∃ now, max u.now due = now := ⟨_, rfl⟩
    have hdue : due ≤ now := hnow ▸ Nat.le_max_right u.now due
    -- The disk changes, the time comes, and the attempt is made.
    let t : LiveRotator L := ⟨diskAt now, now, u.rotator⟩
    have hafter : u.now ≤ now := hnow ▸ Nat.le_max_left u.now due
    have htrace := LiveRotator.traces_attempt hrunning hafter hdue t.disk
    have hthere : IsUnderWay policy requester start tries t := ⟨h.paced, h.failed, h.within⟩
    rcases hthere.attempt hpolicy hrunning hdue with hunder | hover
    · obtain ⟨⟨e, herror⟩, -⟩ := hunder.failed _ (List.mem_concat_self)
      have hwithin : tries.length + 1 ≤ policy.maxRetries := by
        simpa only [List.length_append, List.length_singleton] using hunder.within
      have hretries : tries.length < u.rotator.policy.maxRetries := hpolicy ▸ hwithin
      have hattempt : u.rotator.attempt (diskAt now) now = _ :=
        Rotator.attempt_of_error hrunning herror hretries
      obtain ⟨more, v, front, last, hmore, heq, hover, hdisk, hcalls, houtcome⟩ :=
        ih hunder (by rw [hattempt]; exact hpolicy)
          (by rw [List.length_append, List.length_singleton]; omega)
          _ diskAt (by rw [hattempt]; exact ReloadQueue.running_pause hrunning _)
      rw [LiveRotator.remaining_of_error hrunning hnow herror hretries]
      refine ⟨_, v, front, last, htrace.trans hmore, by rw [← List.append_assoc, heq], hover,
        List.forall_mem_append.2 ⟨List.forall_mem_singleton.2 rfl, hdisk⟩, ?_, houtcome⟩
      rw [List.map_append, hcalls]
      rfl
    · have hlast : u.remaining ⟨requester, tries.length, due⟩ diskAt = _ :=
        LiveRotator.remaining_of_last hnow
          (hover.ends.imp_right fun hall => Nat.le_of_eq (hpolicy ▸ hall.symm))
      rw [hlast]
      exact ⟨_, _, tries, _, htrace, rfl, hover, List.forall_mem_singleton.2 rfl, rfl, rfl⟩

end Reload

namespace LiveRotator

variable [Limiter L] {s₀ s u : LiveRotator L} {es : RotatorHistory} {reload : RunningReload}
  {tries : List (TimedAttempt L)}

/-- **A reload holds out for its whole budget.**  It is let in by the step to `s`, and whatever
happens then, its attempts come in the rhythm of its policy, the first one at once.  It goes on, and
nothing is in the way of its end; or it has ended with the first attempt that gave material, or with
the last of all that it has.  For whatever can keep a directory from giving material is worth
another attempt. -/
theorem budget_of_traces (hstep : Step s₀ es s)
    (hlet : s₀.rotator.queue.running = none ∨ es.completions ≠ [])
    (hrunning : s.rotator.queue.running = some reload) (htrace : s.Traces tries u) :
    (IsUnderWay s.rotator.policy reload.requester s.now tries u ∧
          CanEnd s.rotator.policy reload.requester s.now tries u ∨
        ∃ front last rest, tries = front ++ last :: rest ∧
          IsOver s.rotator.policy reload.requester s.now front last) ∧
      (∀ diskAt, s.remaining reload diskAt = s.rotator.policy.execute
        (fun d now => d.assemble s.rotator.readers (diskAt now)) s.now s.rotator.directory) ∧
      ∀ (d : CertDirectory) (readers : Readers) (disk : Disk) (e : CertError),
        (d.assemble readers disk).1 = .error e → d.Fails e ∧ Retryable.isRetryable e = true := by
  obtain ⟨hfailed, hdue⟩ := hstep.lets_in hlet hrunning
  refine ⟨?_, ?_, ?_⟩
  · have hfirst : s.rotator.queue.running = some ⟨reload.requester, 0, s.now⟩ := by
      rw [hrunning, ← hfailed, ← hdue]
    have hbegin : IsUnderWay s.rotator.policy reload.requester s.now [] s :=
      ⟨⟨s.now, .nil, hfirst⟩, List.forall_mem_nil _, Nat.zero_le _⟩
    obtain ⟨hpolicy, hso⟩ := hbegin.traces htrace
    exact hso.imp_left fun hunder => ⟨hunder, hunder.canEnd hpolicy⟩
  · intro diskAt
    rw [remaining, hfailed, hdue, Nat.max_self]
    rfl
  · intro d readers disk e herror
    exact ⟨CertDirectory.fails_of_assemble herror, CertDirectory.isRetryable_of_assemble herror⟩

/-- A directory in which the key is missing. -/
def keyless : Disk :=
  ⟨[([[114]], .dir), ([[114], Utf8.ofString "tls.crt"], .file [49])], []⟩

/-- The key comes after the first attempt, and the reload ends with the second one, which is made
after the wait of its policy. -/
theorem budget_of_lateKey : ∃ (directory : CertDirectory) (r : Rotator (Bucket Float))
    (s u : LiveRotator (Bucket Float)) (reload : RunningReload)
    (tries : List (TimedAttempt (Bucket Float))),
    Rotator.fromDirectory keyless directory RotatorWorld.prompt RotatorWorld.trustful
        ⟨3, fun _ => Duration.ofMillis 5⟩ (Bucket.new 0 1 0) = .ok r ∧
      Step ⟨keyless, 0, r⟩ [.entered .caller] s ∧ r.queue.running = none ∧
      s.rotator.queue.running = some reload ∧ s.Traces tries u ∧ u.rotator.queue.running = none ∧
      tries.map (fun a => a.state.now) = [0, Duration.ofMillis 5] ∧
      ∃ front last rest, tries = front ++ last :: rest ∧
        IsOver s.rotator.policy reload.requester s.now front last := by
  obtain ⟨directory, hdirectory⟩ : ∃ directory, CertDirectory.new keyless RotatorWorld.prompt =
      .ok directory := ⟨_, rfl⟩
  obtain ⟨r, hnew⟩ : ∃ r : Rotator (Bucket Float), Rotator.fromDirectory keyless directory
      RotatorWorld.prompt RotatorWorld.trustful ⟨3, fun _ => Duration.ofMillis 5⟩
        (Bucket.new 0 1 0) = .ok r := by
    cases hdirectory
    exact ⟨_, rfl⟩
  obtain ⟨s, u, reload, tries, hstep, hidle, hrunning, htrace, hend, htimes⟩ :
      ∃ (s u : LiveRotator (Bucket Float)) (reload : RunningReload)
        (tries : List (TimedAttempt (Bucket Float))),
      Step ⟨keyless, 0, r⟩ [.entered .caller] s ∧ r.queue.running = none ∧
        s.rotator.queue.running = some reload ∧ s.Traces tries u ∧
        u.rotator.queue.running = none ∧
        tries.map (fun a => a.state.now) = [0, Duration.ofMillis 5] := by
    cases hdirectory
    cases hnew
    exact ⟨_, _, _, _, .call, rfl, rfl, .step (.step (.step (.step .rest
      (.attempt rfl (Nat.le_refl _))) (.edit RotatorWorld.threeFiles))
      (.wait (Nat.zero_le (Duration.ofMillis 5)))) (.attempt rfl (by decide)), rfl, rfl⟩
  obtain ⟨hso, -⟩ := budget_of_traces hstep (.inl hidle) hrunning htrace
  refine ⟨directory, r, s, u, reload, tries, hnew, hstep, hidle, hrunning, htrace, hend, htimes,
    hso.resolve_left ?_⟩
  rintro ⟨hunder, -⟩
  obtain ⟨due, -, hstill⟩ := hunder.paced
  rw [hend] at hstill
  cases hstill

end LiveRotator

end CertRotation
