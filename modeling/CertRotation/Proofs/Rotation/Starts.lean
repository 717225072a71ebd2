import CertRotation.Proofs.Disk.Links
import CertRotation.Proofs.Rotation.Failures
import CertRotation.Proofs.Rotation.Runs
import CertRotation.Proofs.Watch.Stance

/-!
# Starts that get halfway

A rotator starts its directory first and its notifier after that, and stops at the first failure.
Where the directory cannot be started, nothing is.  But a directory that has been started is not
stopped again when the notifier fails: the rotator then does not run, and its store follows the
files all the same, until somebody stops the rotator.

The notifier fails alone only at a path that the directory does not ask for.  There may be one where
the two stand at different places, since a rotator can be made over a directory that covers another
place.  At the same place there is none, unless a link has come to stand there: the loader looks up
its roots anew at each start, while the notifier keeps what it has found when it was made, and the
directories below a link have other paths from there.

* `Rotator.GetsHalfway` — the start that leaves the directory watching alone;
* `Rotator.stances`, `Rotator.watch_cases` — where the two stand, and **all that can come of a
  start**;
* `Rotator.GetsHalfway.linked` — when a start can get halfway over one directory;
* `LiveRotator.Turns`, `LiveRotator.Step.turns` — what a step does to where the two stand;
* `LiveRotator.ComesApart`, `LiveRotator.Runs.exists_comesApart` — where a directory that watches
  alone comes from;
* `LiveRotator.watching_of_runs` — **what watches in any state that a rotator can come to**.
-/

set_option autoImplicit false

namespace CertRotation

namespace CertDirectory

variable {disk : Disk} {runtime : Bool} {d : CertDirectory}

theorem stance_start (disk : Disk) (runtime : Bool) (d : CertDirectory) :
    (d.start disk runtime).2.loader.stance =
      d.loader.stance.turn (d.start disk runtime).1.isOk := by
  have hstart := d.loader.stance_startWatching disk runtime
  rw [start]
  generalize d.loader.startWatching disk runtime = answer at hstart
  obtain ⟨answer, loader⟩ := answer
  cases answer <;> exact hstart

/-- A directory that follows changes has nothing to do when it is started. -/
theorem start_of_isWatching (h : d.isWatching = true) : d.start disk runtime = (.ok (), d) := by
  rw [start, Loader.startWatching_of_isWatching h]
  rfl

/-- A directory that has been started has read and watches what it covers. -/
theorem of_start (hidle : d.isWatching = false) (h : (d.start disk runtime).1 = .ok ()) :
    (d.loader.scan disk).1 = .ok () ∧ runtime = true ∧
      ∃ resolved w, PathWatcher.addPaths disk d.loader.newWatcher d.loader.roots =
          .ok (resolved, w) ∧ ∀ p ∈ w.expand disk, watchFailure? disk p = none :=
  Loader.of_startWatching hidle (Except.mapError_eq_ok.1 h)

theorem stance_assemble (readers : Readers) (disk : Disk) (d : CertDirectory) :
    (d.assemble readers disk).2.loader.stance = d.loader.stance := by
  have hscan := d.loader.stance_scan disk
  rw [assemble, refresh]
  generalize d.loader.scan disk = answer at hscan
  obtain ⟨answer, loader⟩ := answer
  cases answer <;> exact hscan

/-- A new directory stands at the place that the path of the settings leads to. -/
theorem stance_of_new {s : RotationSettings} (h : CertDirectory.new disk s = .ok d) :
    ∃ root, disk.canonical s.certDir = .ok root ∧
      d.loader.stance = ⟨[root], s.subfolders, false⟩ := by
  rw [CertDirectory.new] at h
  split at h
  · rename_i loader hloader
    cases h
    exact Loader.stance_of_new rfl hloader
  · cases h

end CertDirectory

namespace Rotator

variable {L : Type} {disk : Disk} {runtime : Bool} {r r' : Rotator L}

/-- Where the directory of a rotator stands, and where its notifier does. -/
def stances (r : Rotator L) : Stance × Stance :=
  (r.directory.loader.stance, r.notifier.watcher.stance)

/-- The same two places, watched or not. -/
def turned (s : Stance × Stance) (directory notifier : Bool) : Stance × Stance :=
  (s.1.turn directory, s.2.turn notifier)

theorem turned_turned (s : Stance × Stance) (a b c d : Bool) :
    turned (turned s a b) c d = turned s c d := rfl

theorem isWatching_of_stances {s : Stance × Stance} {a b : Bool} (h : r.stances = turned s a b) :
    r.directory.isWatching = a ∧ r.notifier.isWatching = b :=
  ⟨congrArg (fun s => s.1.watching) h, congrArg (fun s => s.2.watching) h⟩

theorem roots_of_stances {a b : Bool} (h : r'.stances = turned r.stances a b) :
    r'.notifier.watcher.roots = r.notifier.watcher.roots :=
  congrArg (fun s => s.2.roots) h

theorem isWatching_congr (h : r'.stances = r.stances) :
    r'.directory.isWatching = r.directory.isWatching ∧
      r'.notifier.isWatching = r.notifier.isWatching :=
  isWatching_of_stances (s := r.stances) h

/-! ## What does not matter to it -/

theorem stances_takeSignals (r : Rotator L) (runtime : Bool) (ds : List Delivery) :
    (r.takeSignals runtime ds).stances = r.stances := by
  rw [takeSignals]
  split
  · rfl
  · rfl

theorem stances_fired {answer : Notifier L × List Delivery}
    (h : answer.1.watcher.stance = r.notifier.watcher.stance) :
    (r.fired answer).stances = r.stances :=
  (stances_takeSignals _ true answer.2).trans (Prod.ext rfl h)

theorem stances_pushChange [Limiter L] (r : Rotator L) (now : Instant) (runtime : Bool)
    (change : Change) : (r.pushChange now runtime change).stances = r.stances :=
  (stances_takeSignals _ runtime _).trans
    (Prod.ext rfl (congrArg PathWatcher.stance (Notifier.watcher_pushChange now runtime change)))

theorem stances_attempt (disk : Disk) (now : Instant) (r : Rotator L) :
    (r.attempt disk now).1.stances = r.stances := by
  have hdirectory := r.directory.stance_assemble r.readers disk
  cases hrunning : r.queue.running with
  | none => rw [attempt, hrunning]
  | some reload =>
    rcases r.attempt_eq hrunning disk now with ⟨e, due, -, heq⟩ | ⟨outcome, -, heq⟩
    · rw [heq]
      exact Prod.ext hdirectory rfl
    · rw [heq]
      exact Prod.ext hdirectory rfl

theorem stances_stop (r : Rotator L) : r.stop.stances = turned r.stances false false :=
  Prod.ext rfl r.notifier.watcher.stance_close

/-! ## Starting -/

/-- **A start gets halfway** if neither of the two watches, the directory starts, and the system
refuses a path that the notifier asks for. -/
structure GetsHalfway (disk : Disk) (runtime : Bool) (r : Rotator L) : Prop where
  directory : r.directory.isWatching = false
  notifier : r.notifier.isWatching = false
  first : (r.directory.start disk runtime).1 = .ok ()
  second : ∃ p ∈ r.notifier.watcher.expand disk, watchFailure? disk p ≠ none

/-- What a start comes to, by the answers of the two. -/
theorem watch_eq (disk : Disk) (runtime : Bool) (r : Rotator L) :
    r.watch disk runtime =
      match (r.directory.start disk runtime).1 with
      | .error e => (.error e, { r with directory := (r.directory.start disk runtime).2 })
      | .ok () =>
        if r.notifier.isWatching then
          (.ok (), { r with directory := (r.directory.start disk runtime).2 })
        else
          ((r.notifier.watcher.start disk runtime).1.mapError .watch, { r with
            directory := (r.directory.start disk runtime).2
            notifier := { r.notifier with
              watcher := (r.notifier.watcher.start disk runtime).2.1 } }) := by
  rw [watch]
  generalize r.directory.start disk runtime = answer
  obtain ⟨answer, directory⟩ := answer
  cases answer <;> rfl

/-- Where the directory has been started, only the paths of the notifier can still be in the way. -/
theorem getsHalfway_iff (hdirectory : r.directory.isWatching = false)
    (hnotifier : r.notifier.isWatching = false)
    (hfirst : (r.directory.start disk runtime).1 = .ok ())
    (hroots : r.notifier.watcher.roots ≠ []) :
    r.GetsHalfway disk runtime ↔ (r.notifier.watcher.start disk runtime).1 ≠ .ok () := by
  obtain ⟨-, hruntime, -⟩ := CertDirectory.of_start hdirectory hfirst
  rw [Ne, PathWatcher.fst_start_eq_ok_iff]
  constructor
  · rintro ⟨-, -, -, p, hp, hfailure⟩ ⟨-, -, hall⟩
    exact hfailure (hall p hp)
  · intro hnot
    refine ⟨hdirectory, hnotifier, hfirst, ?_⟩
    by_contra hnone
    refine hnot ⟨hroots, hruntime, fun p hp => ?_⟩
    by_contra hfailure
    exact hnone ⟨p, hp, hfailure⟩

/-- **All that can come of a start**: both watch, or both are as they were, or the start has got
halfway and the directory watches alone. -/
theorem watch_cases (disk : Disk) (runtime : Bool) (hroots : r.notifier.watcher.roots ≠ []) :
    (∃ r', r.watch disk runtime = (.ok (), r') ∧ ¬ r.GetsHalfway disk runtime ∧
        r'.stances = turned r.stances true true) ∨
      (∃ e r', r.watch disk runtime = (.error e, r') ∧ ¬ r.GetsHalfway disk runtime ∧
        r'.stances = r.stances) ∨
      ∃ failure r', r.watch disk runtime = (.error (.watch (.notify failure)), r') ∧
        r.GetsHalfway disk runtime ∧ r'.stances = turned r.stances true false := by
  have hwatch := r.watch_eq disk runtime
  have hdirectory := r.directory.stance_start disk runtime
  cases hfirst : (r.directory.start disk runtime).1 with
  | error e =>
    rw [hfirst] at hwatch hdirectory
    have hidle : r.directory.isWatching = false := by
      by_contra hrun
      rw [CertDirectory.start_of_isWatching (by simpa using hrun)] at hfirst
      cases hfirst
    have hnot : ¬ r.GetsHalfway disk runtime := by
      intro hhalf
      rw [hhalf.first] at hfirst
      cases hfirst
    exact .inr (.inl ⟨e, _, hwatch, hnot,
      Prod.ext (hdirectory.trans (Stance.turn_eq_self hidle)) rfl⟩)
  | ok =>
    rw [hfirst] at hwatch hdirectory
    dsimp only at hwatch
    cases hnotifying : r.notifier.isWatching with
    | true =>
      rw [if_pos hnotifying] at hwatch
      have hnot : ¬ r.GetsHalfway disk runtime := by
        intro hhalf
        simp [hhalf.notifier] at hnotifying
      exact .inl ⟨_, hwatch, hnot, Prod.ext hdirectory (Stance.turn_eq_self hnotifying).symm⟩
    | false =>
      rw [if_neg (by simp [hnotifying])] at hwatch
      have hnotifier := PathWatcher.stance_start disk runtime hnotifying
      cases hsecond : (r.notifier.watcher.start disk runtime).1 with
      | ok =>
        rw [hsecond] at hwatch hnotifier
        have hnot : ¬ r.GetsHalfway disk runtime := by
          intro hhalf
          exact (getsHalfway_iff hhalf.directory hnotifying hfirst hroots).1 hhalf hsecond
        exact .inl ⟨_, hwatch, hnot, Prod.ext hdirectory hnotifier⟩
      | error reason =>
        rw [hsecond] at hwatch hnotifier
        -- What has been started just now is left watching; what watched before has not been turned.
        cases hfollowing : r.directory.isWatching with
        | true =>
          have hnot : ¬ r.GetsHalfway disk runtime := by
            intro hhalf
            simp [hhalf.directory] at hfollowing
          exact .inr (.inl ⟨.watch reason, _, hwatch, hnot,
            Prod.ext (hdirectory.trans (Stance.turn_eq_self hfollowing))
              (hnotifier.trans (Stance.turn_eq_self hnotifying))⟩)
        | false =>
          have hhalf : r.GetsHalfway disk runtime :=
            (getsHalfway_iff hfollowing hnotifying hfirst hroots).2 (by simp [hsecond])
          obtain ⟨-, hruntime, -⟩ := CertDirectory.of_start hfollowing hfirst
          obtain ⟨failure, rfl⟩ := PathWatcher.fst_start_eq_notify hroots hruntime hsecond
          exact .inr (.inr ⟨failure, _, hwatch, hhalf, Prod.ext hdirectory hnotifier⟩)

/-- After a start that succeeds both watch. -/
theorem stances_of_started (hroots : r.notifier.watcher.roots ≠ [])
    (h : r.watch disk runtime = (.ok (), r')) : r'.stances = turned r.stances true true := by
  rcases watch_cases disk runtime hroots with
    ⟨_, hwatch, -, heq⟩ | ⟨e, _, hwatch, -⟩ | ⟨failure, _, hwatch, -⟩
  · rw [h] at hwatch
    cases hwatch
    exact heq
  · simp [h] at hwatch
  · simp [h] at hwatch

/-- **A start that fails without getting halfway** leaves both as they were. -/
theorem stances_of_failed {e : CertError} (hroots : r.notifier.watcher.roots ≠ [])
    (h : r.watch disk runtime = (.error e, r')) (hnot : ¬ r.GetsHalfway disk runtime) :
    r'.stances = r.stances := by
  rcases watch_cases disk runtime hroots with
    ⟨_, hwatch, -⟩ | ⟨e, _, hwatch, -, heq⟩ | ⟨failure, _, -, hhalf, -⟩
  · simp [h] at hwatch
  · rw [h] at hwatch
    cases hwatch
    exact heq
  · exact absurd hhalf hnot

/-- **A start that gets halfway fails**, and leaves the directory watching. -/
theorem GetsHalfway.exists_watch_eq (h : r.GetsHalfway disk runtime)
    (hroots : r.notifier.watcher.roots ≠ []) :
    ∃ failure r', r.watch disk runtime = (.error (.watch (.notify failure)), r') ∧
      r'.stances = turned r.stances true false := by
  rcases watch_cases disk runtime hroots with
    ⟨_, -, hnot, -⟩ | ⟨e, _, -, hnot, -⟩ | ⟨failure, r', hwatch, -, heq⟩
  · exact absurd h hnot
  · exact absurd h hnot
  · exact ⟨failure, r', hwatch, heq⟩

/-! ## One directory -/

/-- **Over one directory**, and at a place that its own path leads to, a start gets halfway only if
subfolders are watched and a link stands where the place was. -/
theorem GetsHalfway.linked {root : Path} {subfolders a b : Bool} (h : r.GetsHalfway disk runtime)
    (hdirectory : r.directory.loader.stance = ⟨[root], subfolders, a⟩)
    (hnotifier : r.notifier.watcher.stance = ⟨[root], subfolders, b⟩) :
    subfolders = true ∧ disk.canonical root ≠ .ok root := by
  have hroots : r.directory.loader.roots = [root] := congrArg Stance.roots hdirectory
  have hroots' : r.notifier.watcher.roots = [root] := congrArg Stance.roots hnotifier
  have hsub : r.directory.loader.subfolders = subfolders := congrArg Stance.subfolders hdirectory
  have hsub' : r.notifier.watcher.subfolders = subfolders := congrArg Stance.subfolders hnotifier
  obtain ⟨p, hp, hfailure⟩ := h.second
  obtain ⟨hscan, -, resolved, w, hadd, hall⟩ := CertDirectory.of_start h.directory h.first
  cases subfolders with
  | false =>
    -- The scan has gone on at the root, so the root can be watched.
    have hwalk : disk.CanWalk root :=
      Loader.fst_scan_eq_ok.1 hscan root (by rw [hroots]; exact List.mem_singleton_self root)
    rw [PathWatcher.expand, hroots', hsub'] at hp
    obtain rfl : p = root := by simpa using Path.mem_of_mem_sorted hp
    exact absurd (watchFailure?_eq_none_iff.2 hwalk) hfailure
  | true =>
    refine ⟨rfl, fun hcanonical => hfailure (hall p ?_)⟩
    rw [hroots] at hadd
    obtain ⟨found, hfound, hw⟩ := PathWatcher.stance_addPaths rfl hadd
    rw [hcanonical] at hfound
    cases hfound
    have hwroots : w.roots = [root] := congrArg Stance.roots hw
    have hwsub : w.subfolders = r.directory.loader.subfolders := congrArg Stance.subfolders hw
    rwa [PathWatcher.expand_congr (hwroots.trans hroots'.symm)
      (hwsub.trans (hsub.trans hsub'.symm))]

end Rotator

namespace LiveRotator

variable {L : Type} {s t u : LiveRotator L} {h es : RotatorHistory}

/-! ## Steps -/

open Rotator (turned)

/-- **What a step may do to where a rotator stands.** -/
inductive Turns (s t : LiveRotator L) : RotatorHistory → Prop
  | stays {es : RotatorHistory} (hstop : .stopped ∉ es)
      (heq : t.rotator.stances = s.rotator.stances) : Turns s t es
  | starts (heq : t.rotator.stances = turned s.rotator.stances true true) :
      Turns s t [.entered .caller]
  | stops (heq : t.rotator.stances = turned s.rotator.stances false false) : Turns s t [.stopped]
  /-- A start gets halfway. -/
  | parts {runtime : Bool} {e : CertError} {r : Rotator L}
      (hhalf : s.rotator.GetsHalfway s.disk runtime)
      (hwatch : s.rotator.watch s.disk runtime = (.error e, r)) (ht : t = s.become r)
      (heq : t.rotator.stances = turned s.rotator.stances true false) : Turns s t []

/-- A step turns what watches and what does not, and nothing else. -/
theorem Turns.exists_stances_eq (hturns : Turns s t es) :
    ∃ directory notifier, t.rotator.stances = turned s.rotator.stances directory notifier := by
  cases hturns with
  | stays hstop heq => exact ⟨_, _, heq⟩
  | starts heq => exact ⟨true, true, heq⟩
  | stops heq => exact ⟨false, false, heq⟩
  | parts hhalf hwatch ht heq => exact ⟨true, false, heq⟩

variable [Limiter L]

/-- **There are no other steps** with respect to where a rotator stands. -/
theorem Step.turns (hroots : s.rotator.notifier.watcher.roots ≠ []) (hstep : Step s es t) :
    Turns s t es := by
  cases hstep with
  | edit disk => exact .stays (by simp) rfl
  | wait hnow => exact .stays (by simp) rfl
  | push runtime change =>
    exact .stays (by simp) (s.rotator.stances_pushChange s.now runtime change)
  | toDirectory report =>
    exact .stays (by simp) (Prod.ext (s.rotator.directory.loader.stance_notified s.disk report) rfl)
  | toNotifier report =>
    exact .stays (by simp)
      (Rotator.stances_fired (s.rotator.notifier.stance_notified s.disk s.now report))
  | failure e =>
    exact .stays (by simp) (Rotator.stances_fired
      (congrArg PathWatcher.stance (s.rotator.notifier.watcher_notifiedError s.now e)))
  | fire =>
    exact .stays (by simp) (Rotator.stances_fired
      (congrArg PathWatcher.stance (s.rotator.notifier.watcher_fireDue s.now)))
  | timer htask hdue =>
    exact .stays (by simp) (Rotator.stances_fired
      (congrArg PathWatcher.stance (Notifier.watcher_fireChanges _)))
  | errorTimer htask hdue =>
    exact .stays (by simp) (Rotator.stances_fired
      (congrArg PathWatcher.stance (Notifier.watcher_fireErrors _)))
  | enter hscheduled => exact .stays (by simp) rfl
  | call => exact .stays (by simp) rfl
  | start hwatch =>
    have hstarted := Rotator.stances_of_started hroots hwatch
    exact .starts hstarted
  | @startFails runtime e r hwatch =>
    by_cases hhalf : s.rotator.GetsHalfway s.disk runtime
    · obtain ⟨failure, r', hfails, heq⟩ := hhalf.exists_watch_eq hroots
      rw [hwatch] at hfails
      cases hfails
      exact .parts hhalf hwatch rfl heq
    · exact .stays (by simp) (Rotator.stances_of_failed hroots hwatch hhalf)
  | stop => exact .stops s.rotator.stances_stop
  | subscribe callback => exact .stays (by simp) rfl
  | exchange subscriber callback => exact .stays (by simp) rfl
  | attempt hrunning hdue => exact .stays (by simp) (s.rotator.stances_attempt s.disk s.now)

/-! ## Runs -/

/-- However a rotator is run, the two stay at their places. -/
theorem Runs.exists_stances_eq (hroots : s.rotator.notifier.watcher.roots ≠ [])
    (hrun : Runs s h u) :
    ∃ directory notifier, u.rotator.stances = turned s.rotator.stances directory notifier := by
  induction hrun with
  | rest => exact ⟨_, _, rfl⟩
  | @step h es t u hrun hstep ih =>
    obtain ⟨a, b, ht⟩ := ih
    have hroots' : t.rotator.notifier.watcher.roots ≠ [] := by
      rwa [Rotator.roots_of_stances ht]
    obtain ⟨c, d, hu⟩ := (hstep.turns hroots').exists_stances_eq
    exact ⟨c, d, by rw [hu, ht, Rotator.turned_turned]⟩

/-- No run takes the roots away. -/
theorem Runs.roots_ne_nil (hroots : s.rotator.notifier.watcher.roots ≠ []) (hrun : Runs s h u) :
    u.rotator.notifier.watcher.roots ≠ [] := by
  obtain ⟨directory, notifier, hu⟩ := hrun.exists_stances_eq hroots
  rwa [Rotator.roots_of_stances hu]

/-- **The notifier never watches without the directory.** -/
theorem Runs.directory_of_notifier (hroots : s.rotator.notifier.watcher.roots ≠ [])
    (hidle : s.rotator.notifier.isWatching = false) (hrun : Runs s h u)
    (hwatching : u.rotator.notifier.isWatching = true) :
    u.rotator.directory.isWatching = true := by
  induction hrun with
  | rest => simp [hidle] at hwatching
  | step hrun hstep ih =>
    cases hstep.turns (hrun.roots_ne_nil hroots) with
    | stays hstop heq =>
      obtain ⟨hdirectory, hnotifier⟩ := Rotator.isWatching_congr heq
      rw [hdirectory]
      exact ih (hnotifier ▸ hwatching)
    | starts heq => exact (Rotator.isWatching_of_stances heq).1
    | stops heq =>
      rw [(Rotator.isWatching_of_stances heq).2] at hwatching
      cases hwatching
    | parts hhalf hwatch hu heq => exact (Rotator.isWatching_of_stances heq).1

/-- **Only a stop makes the directory cease to watch.** -/
theorem Runs.directory_isWatching (hroots : s.rotator.notifier.watcher.roots ≠ [])
    (hwatching : s.rotator.directory.isWatching = true) (hrun : Runs s h u)
    (hstop : .stopped ∉ h) : u.rotator.directory.isWatching = true := by
  induction hrun with
  | rest => exact hwatching
  | step hrun hstep ih =>
    rw [List.mem_append, not_or] at hstop
    cases hstep.turns (hrun.roots_ne_nil hroots) with
    | stays hnone heq => exact (Rotator.isWatching_congr heq).1.trans (ih hstop.1)
    | starts heq => exact (Rotator.isWatching_of_stances heq).1
    | stops heq => exact absurd List.mem_cons_self hstop.2
    | parts hhalf hwatch hu heq => exact (Rotator.isWatching_of_stances heq).1

/-- **How the two come apart**: the rotator is made over a directory that follows changes already,
or a start gets halfway. -/
inductive ComesApart (s : LiveRotator L) : RotatorHistory → LiveRotator L → Prop
  | made (hdirectory : s.rotator.directory.isWatching = true) : ComesApart s [] s
  | started {h : RotatorHistory} {t : LiveRotator L} {runtime : Bool} {e : CertError}
      {r : Rotator L} (hrun : Runs s h t) (hhalf : t.rotator.GetsHalfway t.disk runtime)
      (hwatch : t.rotator.watch t.disk runtime = (.error e, r)) : ComesApart s h (t.become r)

theorem ComesApart.runs (hapart : ComesApart s h t) : Runs s h t := by
  cases hapart with
  | made hdirectory => exact .rest
  | started hrun hhalf hwatch =>
    have hlast := hrun.step (.startFails hwatch)
    rwa [List.append_nil] at hlast

/-- Where the two have come apart, the directory watches. -/
theorem ComesApart.directory_isWatching (hroots : s.rotator.notifier.watcher.roots ≠ [])
    (hapart : ComesApart s h t) : t.rotator.directory.isWatching = true := by
  cases hapart with
  | made hdirectory => exact hdirectory
  | started hrun hhalf hwatch =>
    obtain ⟨failure, r', hfails, heq⟩ := hhalf.exists_watch_eq (hrun.roots_ne_nil hroots)
    rw [hwatch] at hfails
    cases hfails
    exact (Rotator.isWatching_of_stances heq).1

/-- **Where a directory that watches alone comes from**: at some moment the two came apart, and
nobody has stopped the rotator since. -/
theorem Runs.exists_comesApart (hroots : s.rotator.notifier.watcher.roots ≠ [])
    (hrun : Runs s h u) (hdirectory : u.rotator.directory.isWatching = true)
    (hnotifier : u.rotator.notifier.isWatching = false) :
    ∃ front rest t, h = front ++ rest ∧ ComesApart s front t ∧ Runs t rest u ∧
      .stopped ∉ rest := by
  induction hrun with
  | rest => exact ⟨[], [], s, rfl, .made hdirectory, .rest, List.not_mem_nil⟩
  | @step h es t u hrun hstep ih =>
    cases hstep.turns (hrun.roots_ne_nil hroots) with
    | stays hstop heq =>
      obtain ⟨hsame, hsame'⟩ := Rotator.isWatching_congr heq
      obtain ⟨front, rest, v, rfl, hapart, hlate, hnone⟩ :=
        ih (hsame ▸ hdirectory) (hsame' ▸ hnotifier)
      refine ⟨front, rest ++ es, v, List.append_assoc .., hapart, hlate.step hstep, ?_⟩
      rw [List.mem_append, not_or]
      exact ⟨hnone, hstop⟩
    | starts heq =>
      rw [(Rotator.isWatching_of_stances heq).2] at hnotifier
      cases hnotifier
    | stops heq =>
      rw [(Rotator.isWatching_of_stances heq).1] at hdirectory
      cases hdirectory
    | parts hhalf hwatch hu heq =>
      subst hu
      exact ⟨h, [], _, rfl, .started hrun hhalf hwatch, .rest, List.not_mem_nil⟩

/-! ## Rotators -/

/-- **What watches, and what a start that fails leaves behind.**  For a rotator over any directory,
in any state that it can come to:

* a start that fails without getting halfway leaves the directory and the notifier as they were;
* one that gets halfway fails, and leaves the directory watching and the notifier not;
* the two differ exactly if the notifier does not watch, they have come apart at some moment, and
  nobody has stopped the rotator since; they come apart at a start that gets halfway, or when the
  rotator is made over a directory that watches already;
* over a directory made from the same settings no start gets halfway, unless subfolders are watched
  and the path of the place no longer leads to itself. -/
theorem watching_of_runs {before disk : Disk} {now : Instant} {directory : CertDirectory}
    {settings : RotationSettings} {readers : Readers} {policy : RetryPolicy} {limiter : L}
    {r : Rotator L}
    (hnew : Rotator.fromDirectory before directory settings readers policy limiter = .ok r)
    (hrun : Runs ⟨disk, now, r⟩ h u) :
    (∀ disk' runtime e r', u.rotator.watch disk' runtime = (.error e, r') →
        ¬ u.rotator.GetsHalfway disk' runtime →
        r'.directory.isWatching = u.rotator.directory.isWatching ∧
          r'.notifier.isWatching = u.rotator.notifier.isWatching) ∧
      (∀ disk' runtime, u.rotator.GetsHalfway disk' runtime →
        ∃ failure r', u.rotator.watch disk' runtime = (.error (.watch (.notify failure)), r') ∧
          r'.directory.isWatching = true ∧ r'.notifier.isWatching = false) ∧
      (u.rotator.directory.isWatching ≠ u.rotator.notifier.isWatching ↔
        u.rotator.notifier.isWatching = false ∧
          ∃ front rest t, h = front ++ rest ∧ ComesApart ⟨disk, now, r⟩ front t ∧
            Runs t rest u ∧ .stopped ∉ rest) ∧
      (CertDirectory.new before settings = .ok directory →
        ∀ disk' runtime, u.rotator.GetsHalfway disk' runtime →
          settings.subfolders = true ∧
            ∃ root, before.canonical settings.certDir = .ok root ∧
              disk'.canonical root ≠ .ok root) := by
  obtain ⟨notifier, hnotifier, rfl⟩ := Rotator.of_fromDirectory hnew
  obtain ⟨root, hroot, hstance⟩ := Notifier.stance_of_new rfl hnotifier
  have hroots : notifier.watcher.roots ≠ [] := by
    rw [show notifier.watcher.roots = [root] from congrArg Stance.roots hstance]
    exact List.cons_ne_nil _ _
  have hidle : notifier.isWatching = false := congrArg Stance.watching hstance
  refine ⟨fun disk' runtime e r' hwatch hnot => ?_, fun disk' runtime hhalf => ?_, ?_,
    fun hdirectory disk' runtime hhalf => ?_⟩
  · exact Rotator.isWatching_congr
      (Rotator.stances_of_failed (hrun.roots_ne_nil hroots) hwatch hnot)
  · obtain ⟨failure, r', hwatch, heq⟩ := hhalf.exists_watch_eq (hrun.roots_ne_nil hroots)
    exact ⟨failure, r', hwatch, Rotator.isWatching_of_stances heq⟩
  · constructor
    · intro hdiffer
      have hbehind := hrun.directory_of_notifier hroots hidle
      have hnone : u.rotator.notifier.isWatching = false := by
        by_contra hwatching
        rw [Bool.not_eq_false] at hwatching
        exact hdiffer ((hbehind hwatching).trans hwatching.symm)
      have halone : u.rotator.directory.isWatching = true := by
        rw [hnone] at hdiffer
        exact Bool.ne_false_iff.1 hdiffer
      exact ⟨hnone, hrun.exists_comesApart hroots halone hnone⟩
    · rintro ⟨hnone, front, rest, t, -, hapart, hlate, hstop⟩
      have halone := hlate.directory_isWatching (hapart.runs.roots_ne_nil hroots)
        (hapart.directory_isWatching hroots) hstop
      simp [hnone, halone]
  · obtain ⟨root', hroot', hplace⟩ := CertDirectory.stance_of_new hdirectory
    rw [hroot] at hroot'
    cases hroot'
    obtain ⟨a, b, hu⟩ := hrun.exists_stances_eq hroots
    have hfirst : u.rotator.directory.loader.stance = ⟨[root], settings.subfolders, a⟩ :=
      (congrArg Prod.fst hu).trans (congrArg (fun stance => stance.turn a) hplace)
    have hsecond : u.rotator.notifier.watcher.stance = ⟨[root], settings.subfolders, b⟩ :=
      (congrArg Prod.snd hu).trans (congrArg (fun stance => stance.turn b) hstance)
    obtain ⟨hsub, hlinked⟩ := hhalf.linked hfirst hsecond
    exact ⟨hsub, root, hroot, hlinked⟩

/-- Two directories, and the second of them alone. -/
def twoPlaces : Disk := ⟨[([[114]], .dir), ([[115]], .dir)], []⟩

def secondPlace : Disk := ⟨[([[115]], .dir)], []⟩

/-- A rotator over one directory is started and stopped.  Then the directory goes away, and another
start fails; nothing watches after it. -/
theorem watching_of_vanished : ∃ (directory : CertDirectory) (r r' : Rotator (Bucket Float))
    (u : LiveRotator (Bucket Float)) (e : CertError),
    CertDirectory.new twoPlaces RotatorWorld.prompt = .ok directory ∧
      Rotator.fromDirectory twoPlaces directory RotatorWorld.prompt RotatorWorld.trustful
        ⟨0, fun _ => 0⟩ (Bucket.new 0 1 0) = .ok r ∧
      Runs ⟨twoPlaces, 0, r⟩ [.entered .caller, .stopped] u ∧
      u.rotator.watch secondPlace true = (.error e, r') ∧
      r'.directory.isWatching = false ∧ r'.notifier.isWatching = false := by
  obtain ⟨directory, hdirectory⟩ : ∃ directory, CertDirectory.new twoPlaces
      RotatorWorld.prompt = .ok directory := ⟨_, rfl⟩
  obtain ⟨r, hnew⟩ : ∃ r : Rotator (Bucket Float), Rotator.fromDirectory twoPlaces directory
      RotatorWorld.prompt RotatorWorld.trustful ⟨0, fun _ => 0⟩ (Bucket.new 0 1 0) = .ok r := by
    cases hdirectory
    exact ⟨_, rfl⟩
  obtain ⟨started, hstart⟩ : ∃ started, r.watch twoPlaces true = (.ok (), started) := by
    cases hdirectory
    cases hnew
    exact ⟨_, rfl⟩
  have hrun : Runs ⟨twoPlaces, 0, r⟩ [.entered .caller, .stopped]
      ⟨twoPlaces, 0, (started.enter 0 .caller).stop⟩ := .step (.step .rest (.start hstart)) .stop
  obtain ⟨e, r', hwatch⟩ : ∃ e r',
      (started.enter 0 .caller).stop.watch secondPlace true = (.error e, r') := by
    cases hdirectory
    cases hnew
    cases hstart
    exact ⟨_, _, rfl⟩
  obtain ⟨hfailed, -, -, hone⟩ := watching_of_runs hnew hrun
  have hnot : ¬ Rotator.GetsHalfway secondPlace true (started.enter 0 .caller).stop := by
    intro hhalf
    obtain ⟨hsub, -⟩ := hone hdirectory _ _ hhalf
    cases hsub
  obtain ⟨hsame, hsame'⟩ := hfailed _ _ _ _ hwatch hnot
  have hstopped := Rotator.isWatching_of_stances (started.enter 0 .caller).stances_stop
  exact ⟨directory, r, r', _, e, hdirectory, hnew, hrun, hwatch, hsame.trans hstopped.1,
    hsame'.trans hstopped.2⟩

/-- **A start that fails leaves the directory watching**, where the rotator has been made over a
directory of its own and the place that its notifier watches has gone. -/
theorem watches_halfway : ∃ (directory : CertDirectory) (r r' : Rotator (Bucket Float))
    (e : CertError),
    CertDirectory.new twoPlaces (.inDirectory (filePath [[115]] [])) = .ok directory ∧
      Rotator.fromDirectory twoPlaces directory RotatorWorld.prompt RotatorWorld.trustful
        ⟨0, fun _ => 0⟩ (Bucket.new 0 1 0) = .ok r ∧
      r.directory.isWatching = false ∧ r.notifier.isWatching = false ∧
      r.watch secondPlace true = (.error e, r') ∧
      r'.directory.isWatching = true ∧ r'.notifier.isWatching = false :=
  ⟨_, _, _, _, rfl, rfl, rfl, rfl, rfl, rfl, rfl⟩

end LiveRotator

end CertRotation
