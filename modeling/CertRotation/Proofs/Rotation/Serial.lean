import CertRotation.Proofs.Rotation.Runs
import Mathlib.Data.List.Forall2

/-!
# One reload after the other

A reload that comes to the queue waits until those before it are over, however long they pause
between their attempts.  So the attempts of a run are those of the first reload, then those of the
second, and so on, and the last of them may be those of the reload that runs.

* `Attempt.Completes` — the attempts of a reload that is over;
* `RotatorHistory.IsSerial` — the attempts of a history, reload by reload, in the order in which the
  reloads came to the queue;
* `RotatorHistory.IsSerial.moves` — every step keeps it so.
-/

set_option autoImplicit false

namespace CertRotation

/-- An attempt of a reload. -/
structure Attempt where
  reload : RunningReload
  outcome : ReloadOutcome
  /-- The reload, if it is over now. -/
  done : Option Completion

namespace Attempt

/-- Attempts of one reload that failed and after which it went on: they are numbered from zero. -/
structure ArePauses (requester : Requester) (attempts : List Attempt) : Prop where
  requester : ∀ a ∈ attempts, a.reload.requester = requester
  numbers : attempts.map (fun a => a.reload.failed) = List.range attempts.length
  failed : ∀ a ∈ attempts, ∃ e, a.outcome = .error e
  done : ∀ a ∈ attempts, a.done = none

/-- All attempts of a reload that is over: with the last one it ended. -/
def Completes (attempts : List Attempt) (c : Completion) : Prop :=
  ∃ pauses last, attempts = pauses ++ [last] ∧ ArePauses c.requester pauses ∧
    last.reload.requester = c.requester ∧ last.reload.failed = pauses.length ∧
    last.outcome = c.outcome ∧ last.done = some c

variable {requester : Requester} {attempts : List Attempt}

theorem arePauses_nil : ArePauses requester [] where
  requester := List.forall_mem_nil _
  numbers := rfl
  failed := List.forall_mem_nil _
  done := List.forall_mem_nil _

/-- The next attempt of the reload has the next number. -/
theorem ArePauses.concat (h : ArePauses requester attempts) {reload : RunningReload}
    (hrequester : reload.requester = requester) (hnumber : attempts.length = reload.failed)
    (e : CertError) : ArePauses requester (attempts ++ [⟨reload, .error e, none⟩]) where
  requester := List.forall_mem_append.2 ⟨h.requester, List.forall_mem_singleton.2 hrequester⟩
  numbers := by
    rw [List.map_append, h.numbers, List.length_append, List.length_singleton, List.range_succ,
      hnumber]
    rfl
  failed := List.forall_mem_append.2 ⟨h.failed, List.forall_mem_singleton.2 ⟨e, rfl⟩⟩
  done := List.forall_mem_append.2 ⟨h.done, List.forall_mem_singleton.2 rfl⟩

end Attempt

namespace RotatorEvent

/-- The attempt that was made. -/
def attempt? : RotatorEvent → Option Attempt
  | attempted reload outcome done => some ⟨reload, outcome, done⟩
  | _ => none

/-- Who asked for the reload that came to the queue. -/
def entrant? : RotatorEvent → Option Requester
  | entered requester => some requester
  | _ => none

/-- No attempt is made, and no reload comes to the queue. -/
def IsAside (e : RotatorEvent) : Prop := e.attempt? = none ∧ e.entrant? = none

theorem IsAside.completion?_eq_none {e : RotatorEvent} (h : e.IsAside) : e.completion? = none := by
  cases e with
  | attempted reload outcome done => cases h.1
  | _ => rfl

end RotatorEvent

namespace RotatorHistory

variable {h es : RotatorHistory} {q q' : ReloadQueue} {finished : List (List Attempt)}
  {current : List Attempt}

/-- All attempts, in their order. -/
def attempts (h : RotatorHistory) : List Attempt := h.filterMap RotatorEvent.attempt?

/-- Who asked for the reloads that came to the queue, in their order. -/
def entrants (h : RotatorHistory) : List Requester := h.filterMap RotatorEvent.entrant?

/-- **The attempts of a history, reload by reload.**  First come all attempts of the reload that
came to the queue first, then all of the second, and so on; what is left is of the reload that
runs. -/
structure IsSerial (h : RotatorHistory) (q : ReloadQueue) (finished : List (List Attempt))
    (current : List Attempt) : Prop where
  attempts : h.attempts = finished.flatten ++ current
  completed : List.Forall₂ Attempt.Completes finished h.completions
  idle : q.running = none → current = [] ∧ q.waiting = []
  running : ∀ reload, q.running = some reload →
    current.length = reload.failed ∧ Attempt.ArePauses reload.requester current
  /-- Reloads are over, run and wait in the order in which they came to the queue. -/
  entrants : h.entrants = h.completions.map Completion.requester ++
    (q.running.map RunningReload.requester).toList ++ q.waiting

theorem isSerial_nil : IsSerial [] .empty [] [] :=
  ⟨rfl, .nil, fun _ => ⟨rfl, rfl⟩, fun _ hsome => absurd hsome.symm (Option.some_ne_none _), rfl⟩

/-- Where no attempt is made and no reload comes to the queue. -/
theorem IsSerial.aside (hserial : h.IsSerial q finished current) (hes : ∀ e ∈ es, e.IsAside)
    (hrunning : q'.running = q.running) (hwaiting : q'.waiting = q.waiting) :
    IsSerial (h ++ es) q' finished current := by
  have hattempts : RotatorHistory.attempts (h ++ es) = h.attempts := by
    rw [RotatorHistory.attempts, List.filterMap_append,
      List.filterMap_eq_nil_iff.2 fun e he => (hes e he).1]
    exact List.append_nil _
  have hentrants : RotatorHistory.entrants (h ++ es) = h.entrants := by
    rw [RotatorHistory.entrants, List.filterMap_append,
      List.filterMap_eq_nil_iff.2 fun e he => (hes e he).2]
    exact List.append_nil _
  have hcompletions : completions (h ++ es) = h.completions := by
    rw [completions_append, completions_eq_nil fun e he => (hes e he).completion?_eq_none]
    exact List.append_nil _
  refine ⟨?_, ?_, ?_, ?_, ?_⟩
  · rw [hattempts]
    exact hserial.attempts
  · rw [hcompletions]
    exact hserial.completed
  · rw [hrunning, hwaiting]
    exact hserial.idle
  · rw [hrunning]
    exact hserial.running
  · rw [hentrants, hcompletions, hrunning, hwaiting]
    exact hserial.entrants

/-- A reload comes to the queue. -/
theorem IsSerial.enter (hserial : h.IsSerial q finished current) (now : Instant)
    (requester : Requester) :
    IsSerial (h ++ [.entered requester]) (q.enter now requester) finished current := by
  have hattempts : RotatorHistory.attempts (h ++ [.entered requester]) = h.attempts := by
    rw [RotatorHistory.attempts, List.filterMap_append]
    exact List.append_nil _
  have hcompletions : completions (h ++ [.entered requester]) = h.completions := by
    rw [completions_append]
    exact List.append_nil _
  have hentrants : RotatorHistory.entrants (h ++ [.entered requester]) =
      h.entrants ++ [requester] := List.filterMap_append ..
  cases hrunning : q.running with
  | none =>
    have henter : q.enter now requester = { q with running := some ⟨requester, 0, now⟩ } := by
      rw [ReloadQueue.enter, hrunning]
    obtain ⟨rfl, hwaiting⟩ := hserial.idle hrunning
    rw [henter]
    refine ⟨hattempts.trans hserial.attempts, ?_, ?_, ?_, ?_⟩
    · rw [hcompletions]
      exact hserial.completed
    · exact fun hnone => absurd hnone (Option.some_ne_none _)
    · rintro reload ⟨⟩
      exact ⟨rfl, Attempt.arePauses_nil⟩
    · rw [hentrants, hcompletions, hserial.entrants, hrunning, hwaiting]
      simp
  | some reload =>
    have henter : q.enter now requester = { q with waiting := q.waiting ++ [requester] } := by
      rw [ReloadQueue.enter, hrunning]
    rw [henter]
    refine ⟨hattempts.trans hserial.attempts, ?_, ?_, hserial.running, ?_⟩
    · rw [hcompletions]
      exact hserial.completed
    · intro hnone
      rw [hrunning] at hnone
      cases hnone
    · rw [hentrants, hcompletions, hserial.entrants, List.append_assoc]

/-- The running reload makes an attempt and goes on. -/
theorem IsSerial.pause (hserial : h.IsSerial q finished current) {reload : RunningReload}
    (hrunning : q.running = some reload) (e : CertError) (due : Instant) :
    IsSerial (h ++ [.attempted reload (.error e) none]) (q.pause due) finished
      (current ++ [⟨reload, .error e, none⟩]) := by
  obtain ⟨hnumber, hpauses⟩ := hserial.running reload hrunning
  have hcompletions : completions (h ++ [.attempted reload (.error e) none]) = h.completions := by
    rw [completions_append]
    exact List.append_nil _
  refine ⟨?_, ?_, ?_, ?_, ?_⟩
  · rw [RotatorHistory.attempts, List.filterMap_append, ← List.append_assoc, ← hserial.attempts]
    rfl
  · rw [hcompletions]
    exact hserial.completed
  · intro hnone
    rw [ReloadQueue.pause, hrunning] at hnone
    cases hnone
  · intro paused hpaused
    rw [ReloadQueue.pause, hrunning] at hpaused
    cases hpaused
    exact ⟨by rw [List.length_append, hnumber]; rfl, hpauses.concat rfl hnumber e⟩
  · rw [hcompletions, RotatorHistory.entrants, List.filterMap_append, ReloadQueue.pause, hrunning]
    have hentrants := hserial.entrants
    rw [hrunning] at hentrants
    exact (List.append_nil _).trans hentrants

/-- The running reload makes its last attempt, and the next one is let in. -/
theorem IsSerial.leave (hserial : h.IsSerial q finished current) {reload : RunningReload}
    (hrunning : q.running = some reload) (now : Instant) {c : Completion}
    (hrequester : c.requester = reload.requester) :
    IsSerial (h ++ [.attempted reload c.outcome (some c)]) (q.leave now)
      (finished ++ [current ++ [⟨reload, c.outcome, some c⟩]]) [] := by
  obtain ⟨hnumber, hpauses⟩ := hserial.running reload hrunning
  have hcompletes : Attempt.Completes (current ++ [Attempt.mk reload c.outcome (some c)]) c :=
    ⟨current, ⟨reload, c.outcome, some c⟩, rfl, by rw [hrequester]; exact hpauses,
      hrequester.symm, hnumber.symm, rfl, rfl⟩
  have hattempts : RotatorHistory.attempts (h ++ [.attempted reload c.outcome (some c)]) =
      (finished ++ [current ++ [Attempt.mk reload c.outcome (some c)]]).flatten ++ [] := by
    rw [RotatorHistory.attempts, List.filterMap_append, List.append_nil, List.flatten_concat,
      ← List.append_assoc, ← hserial.attempts]
    rfl
  have hcompletions : completions (h ++ [.attempted reload c.outcome (some c)]) =
      h.completions ++ [c] := completions_append
  have hcompleted : List.Forall₂ Attempt.Completes
      (finished ++ [current ++ [Attempt.mk reload c.outcome (some c)]])
      (completions (h ++ [.attempted reload c.outcome (some c)])) := by
    rw [hcompletions]
    exact List.rel_append hserial.completed (.cons hcompletes .nil)
  have hentrants : RotatorHistory.entrants (h ++ [.attempted reload c.outcome (some c)]) =
      (h.completions ++ [c]).map Completion.requester ++ q.waiting := by
    rw [RotatorHistory.entrants, List.filterMap_append, List.map_append, List.map_singleton,
      hrequester]
    refine (List.append_nil _).trans (hserial.entrants.trans ?_)
    rw [hrunning]
    rfl
  cases hwaiting : q.waiting with
  | nil =>
    have hleave : q.leave now = { q with running := none } := by rw [ReloadQueue.leave, hwaiting]
    rw [hleave]
    refine ⟨hattempts, hcompleted, fun _ => ⟨rfl, hwaiting⟩, ?_, ?_⟩
    · exact fun _ hsome => absurd hsome.symm (Option.some_ne_none _)
    · rw [hentrants, hcompletions, hwaiting]
      simp
  | cons next rest =>
    have hleave : q.leave now = { q with running := some ⟨next, 0, now⟩, waiting := rest } := by
      rw [ReloadQueue.leave, hwaiting]
    rw [hleave]
    refine ⟨hattempts, hcompleted, ?_, ?_, ?_⟩
    · exact fun hnone => absurd hnone (Option.some_ne_none _)
    · rintro reload ⟨⟩
      exact ⟨rfl, Attempt.arePauses_nil⟩
    · rw [hentrants, hcompletions, hwaiting]
      simp

/-- **Every step keeps the reloads one after the other.** -/
theorem IsSerial.moves {L : Type} {r r' : Rotator L}
    (hserial : h.IsSerial r.queue finished current) (hmoves : r.Moves es r') :
    ∃ finished current, IsSerial (h ++ es) r'.queue finished current := by
  cases hmoves with
  | quiet directory watcher => exact ⟨_, _, hserial.aside (List.forall_mem_nil _) rfl rfl⟩
  | relayed changes _ =>
    exact ⟨_, _, hserial.aside (List.forall_mem_map.2 fun _ _ => ⟨rfl, rfl⟩) rfl rfl⟩
  | dropped notifier change =>
    exact ⟨_, _, hserial.aside (List.forall_mem_singleton.2 ⟨rfl, rfl⟩) rfl rfl⟩
  | entered _ _ count now requester =>
    -- What is only scheduled does not matter to those in the queue.
    have hscheduled : h.IsSerial { r.queue with scheduled := count } finished current :=
      ⟨hserial.attempts, hserial.completed, hserial.idle, hserial.running, hserial.entrants⟩
    exact ⟨_, _, hscheduled.enter now requester⟩
  | stopped => exact ⟨_, _, hserial.aside (List.forall_mem_singleton.2 ⟨rfl, rfl⟩) rfl rfl⟩
  | listening he =>
    refine ⟨_, _, hserial.aside (List.forall_mem_singleton.2 ?_) rfl rfl⟩
    rcases he with ⟨callback, rfl⟩ | ⟨subscriber, callback, rfl⟩
    · exact ⟨rfl, rfl⟩
    · exact ⟨rfl, rfl⟩
  | paused hrunning _ e due => exact ⟨_, _, hserial.pause hrunning e due⟩
  | @completed reload hrunning _ outcome _ _ now =>
    exact ⟨_, _, hserial.leave (c := ⟨_, outcome, _⟩) hrunning now rfl⟩

/-- So all attempts of one reload come before the first attempt of the next. -/
theorem isSerial_of_runs {L : Type} [Limiter L] {start s : LiveRotator L}
    (hstart : start.rotator.queue = .empty) (hrun : start.Runs h s) :
    ∃ finished current, h.IsSerial s.rotator.queue finished current := by
  induction hrun with
  | rest =>
    rw [hstart]
    exact ⟨_, _, isSerial_nil⟩
  | step _ hstep ih =>
    obtain ⟨finished, current, hserial⟩ := ih
    exact hserial.moves hstep.moves

end RotatorHistory

end CertRotation
