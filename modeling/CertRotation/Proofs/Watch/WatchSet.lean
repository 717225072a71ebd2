import CertRotation.Proofs.Disk.FileTree
import CertRotation.Proofs.Watch.Lifetime

/-!
# The life of a watcher

A watcher is given roots, started, closed and started again, and in between the system reports what
it saw, all that on a disk that changes from one moment to the next.  What it watches is tied to its
roots at every moment: it is the set of the roots while the watcher does not run, and a growing set
that holds them while it does.

* `WatcherAct`, `PathWatcher.act`, `PathWatcher.run` — what can happen to a watcher;
* `PathWatcher.start_cases` — all that can come of starting;
* `PathWatcher.watched_notified` — what is true of the watched paths after a report;
* `PathWatcher.IsSound`, `PathWatcher.isSound_run` — the invariant;
* `PathWatcher.IsOrderly`, `PathWatcher.isOrderly_of_acts` — **the watcher is orderly at every
  moment of its life**.
-/

set_option autoImplicit false

namespace CertRotation

/-- Whether a callback was called. -/
def WatchEffect.isCall : WatchEffect → Bool
  | watch _ _ => false
  | _ => true

/-- Something that happens to a watcher, with the disk as it is at that moment. -/
inductive WatcherAct where
  | add (disk : Disk) (p : Path)
  | start (disk : Disk) (runtime : Bool)
  | close
  | report (disk : Disk) (report : Notification)
  | failure (e : NotifyError)

namespace WatcherAct

/-- Paths are looked up on disks as a system keeps them. -/
def IsOnFileTree : WatcherAct → Prop
  | add disk _ => disk.IsFileTree
  | _ => True

/-- Whether the act ends what a running watcher has been watching: it is closed, or it is started
anew, which closes it first. -/
def ends : WatcherAct → Bool
  | close => true
  | start _ runtime => runtime
  | _ => false

end WatcherAct

namespace PathWatcher

variable {disk : Disk} {w w' : PathWatcher}

/-- The watcher after an act, and what it did. -/
def act (w : PathWatcher) : WatcherAct → PathWatcher × List WatchEffect
  | .add disk p =>
    match w.addPath disk p with
    | .error _ => (w, [])
    | .ok (_, w) => (w, [])
  | .start disk runtime =>
    let (_, w, effects) := w.start disk runtime
    (w, effects)
  | .close => (w.close, [])
  | .report disk report => w.notified disk report
  | .failure e => (w, w.notifiedError e)

/-- The watcher after some acts. -/
def run (w : PathWatcher) (acts : List WatcherAct) : PathWatcher :=
  acts.foldl (fun w a => (w.act a).1) w

/-! ## Starting and closing -/

theorem close_eq (h : w.watched = Path.sorted w.roots ∨ w.running = true) :
    w.close = { w with running := false, watched := Path.sorted w.roots } := by
  rw [close]
  split
  · rfl
  · rename_i hrun
    rw [← h.resolve_right hrun, ← Bool.eq_false_iff.2 hrun]

theorem expand_close (disk : Disk) (w : PathWatcher) : w.close.expand disk = w.expand disk := by
  obtain ⟨watched, hclose⟩ := w.exists_close_eq
  rw [hclose]
  rfl

/-- Watching is asking for one path after the other and calls nobody. -/
theorem isCall_watchAll (ps : List Path) :
    ∀ effect ∈ (watchAll disk ps).1, effect.isCall = false := by
  induction ps with
  | nil => nofun
  | cons p ps ih =>
    rw [watchAll]
    cases watchFailure? disk p with
    | none => exact List.forall_mem_cons.2 ⟨rfl, ih⟩
    | some failure => exact List.forall_mem_singleton.2 rfl

/-- **All that can come of starting.**  Without roots or without a runtime nothing happens; else the
watcher is closed, and runs only if every path could be watched. -/
theorem start_cases (disk : Disk) (runtime : Bool) (w : PathWatcher) :
    ((w.roots = [] ∨ runtime = false) ∧
        ∃ e, (e = .noPathsConfigured ∨ e = .noRuntime) ∧
          w.start disk runtime = (.error e, w, [])) ∨
      (w.roots ≠ [] ∧ runtime = true ∧
        ((∃ failure, (watchAll disk (w.expand disk)).2 = some failure ∧
            w.start disk runtime =
              (.error (.notify failure), w.close, (watchAll disk (w.expand disk)).1)) ∨
          (watchAll disk (w.expand disk)).2 = none ∧
            w.start disk runtime =
              (.ok (), { w with running := true, watched := w.expand disk },
                (watchAll disk (w.expand disk)).1))) := by
  rw [start]
  split
  · rename_i hroots
    exact .inl ⟨.inl (List.isEmpty_iff.1 hroots), _, .inl rfl, rfl⟩
  rename_i hroots
  split
  · rename_i hruntime
    exact .inl ⟨.inr (by simpa using hruntime), _, .inr rfl, rfl⟩
  rename_i hruntime
  refine .inr ⟨List.isEmpty_iff.not.1 hroots, by simpa using hruntime, ?_⟩
  dsimp only
  rw [expand_close]
  split
  · rename_i effects failure hall
    exact .inl ⟨failure, by rw [hall], by rw [hall]⟩
  · rename_i effects hall
    obtain ⟨watched, hclose⟩ := w.exists_close_eq
    exact .inr ⟨by rw [hall], by rw [hall, hclose]⟩

/-! ## Reports -/

section Reports

variable {P : List Path → Prop}
  (hinsert : ∀ (p : Path) watched, P watched → P (p.insertSorted watched))

include hinsert

theorem watched_absorbAll (ps : List Path) (h : P w.watched) :
    P (absorbAll disk w ps).1.watched := by
  induction ps generalizing w with
  | nil => exact h
  | cons p ps ih =>
    rw [absorbAll]
    split
    · exact ih h
    · cases watchFailure? disk p with
      | none => exact ih (w := { w with watched := p.insertSorted w.watched }) (hinsert p _ h)
      | some failure => exact ih h

theorem watched_handleAll (changes : List Change) (h : P w.watched) :
    P (w.handleAll disk changes).1.watched := by
  induction changes generalizing w with
  | nil => exact h
  | cons change rest ih =>
    rw [handleAll]
    refine ih (w := (w.handle disk change).1) ?_
    rw [handle, absorb]
    split
    · split
      · exact watched_absorbAll hinsert _ h
      · exact h
    · exact h

/-- **A report only adds to the watched paths**: what adding a path does not undo is true after it
if it was before. -/
theorem watched_notified (report : Notification) (h : P w.watched) :
    P (w.notified disk report).1.watched := by
  rw [notified]
  split
  · exact watched_handleAll hinsert _ h
  · exact h

end Reports

theorem exists_fst_notified_eq (disk : Disk) (w : PathWatcher) (report : Notification) :
    ∃ watched, (w.notified disk report).1 = { w with watched := watched } := by
  rw [notified]
  split
  · obtain ⟨watched, effects, heq, -⟩ := w.exists_handleAll_eq disk (report.changes disk)
    exact ⟨watched, by rw [dispatch, heq]⟩
  · exact ⟨w.watched, rfl⟩

/-! ## The invariant -/

/-- How roots and watched paths belong together. -/
structure IsSound (w : PathWatcher) : Prop where
  /-- The roots are absolute paths without links and dots, so each of them has one text. -/
  written : ∀ p ∈ w.roots, ∃ place, p = Disk.pathOf place ∧ ∀ n ∈ place, IsName n
  isDistinct : Path.IsDistinct w.roots
  idle : w.running = false → w.watched = Path.sorted w.roots
  roots_watched : ∀ p ∈ w.roots, p ∈ w.watched
  isAscending : Path.IsAscending w.watched

namespace IsSound

/-- A sound watcher that is not running, from what its roots are like. -/
theorem of_idle (hwritten : ∀ p ∈ w.roots, ∃ place, p = Disk.pathOf place ∧ ∀ n ∈ place, IsName n)
    (hdistinct : Path.IsDistinct w.roots) (hwatched : w.watched = Path.sorted w.roots) :
    w.IsSound where
  written := hwritten
  isDistinct := hdistinct
  idle := fun _ => hwatched
  roots_watched := fun _ hp => hwatched ▸ (Path.mem_sorted_iff hdistinct).2 hp
  isAscending := hwatched ▸ Path.isAscending_sorted _

theorem close_eq (h : w.IsSound) :
    w.close = { w with running := false, watched := Path.sorted w.roots } := by
  refine PathWatcher.close_eq ?_
  cases hrun : w.running with
  | false => exact .inl (h.idle hrun)
  | true => exact .inr rfl

theorem close (h : w.IsSound) : w.close.IsSound := by
  rw [h.close_eq]
  exact of_idle h.written h.isDistinct rfl

/-- **Adding a path** adds what it leads to, unless that is a root already. -/
theorem addPath (h : w.IsSound) (tree : disk.IsFileTree) {p resolved : Path}
    (hadd : w.addPath disk p = .ok (resolved, w')) : w'.IsSound := by
  rw [PathWatcher.addPath] at hadd
  split at hadd
  · cases hadd
  rename_i hrun
  rw [bind_eq_ok] at hadd
  obtain ⟨found, hfound, hadd⟩ := hadd
  split at hadd
  · cases hadd
    exact h
  rename_i hnew
  cases hadd
  obtain ⟨place, rfl, hplace⟩ : ∃ place, resolved = Disk.pathOf place ∧ ∀ n ∈ place, IsName n := by
    rw [resolvePath] at hfound
    split at hfound
    · rename_i hcanonical
      cases hfound
      exact Disk.exists_of_canonical tree hcanonical
    · cases hfound
  refine of_idle (fun q hq => ?_) (List.pairwise_append.2 ⟨h.isDistinct, ?_, ?_⟩) ?_
  · rcases List.mem_append.1 hq with hq | hq
    · exact h.written q hq
    · exact ⟨place, List.mem_singleton.1 hq, hplace⟩
  · exact List.pairwise_singleton _ _
  · intro q hq r hr hsame
    obtain ⟨other, rfl, hother⟩ := h.written q hq
    rw [List.mem_singleton.1 hr, Disk.same_pathOf hother hplace] at hsame
    exact hnew (hsame ▸ hq)
  · rw [Path.sorted_concat, ← h.idle (Bool.eq_false_iff.2 hrun)]

theorem start (h : w.IsSound) (disk : Disk) (runtime : Bool) :
    (w.start disk runtime).2.1.IsSound := by
  rcases start_cases disk runtime w with ⟨-, e, -, heq⟩ | ⟨-, -, ⟨failure, -, heq⟩ | ⟨-, heq⟩⟩
  · rw [heq]
    exact h
  · rw [heq]
    exact h.close
  · rw [heq]
    exact ⟨h.written, h.isDistinct, nofun,
      fun p hp => Path.mem_sorted_append h.isDistinct hp _, Path.isAscending_sorted _⟩

theorem notified (h : w.IsSound) (disk : Disk) (report : Notification) :
    (w.notified disk report).1.IsSound := by
  cases hrun : w.running with
  | false =>
    rw [PathWatcher.notified, if_neg (by simp [hrun])]
    exact h
  | true =>
    have hroots : ∀ p ∈ w.roots, p ∈ (w.notified disk report).1.watched := fun p hp =>
      watched_notified (P := fun watched => p ∈ watched) (fun _ _ => Path.mem_insertSorted) report
        (h.roots_watched p hp)
    have hascending : Path.IsAscending (w.notified disk report).1.watched :=
      watched_notified (fun _ _ h => h.insertSorted) report h.isAscending
    obtain ⟨watched, heq⟩ := exists_fst_notified_eq disk w report
    rw [heq] at hroots hascending ⊢
    refine ⟨h.written, h.isDistinct, fun hidle => ?_, hroots, hascending⟩
    exact absurd (hrun.symm.trans hidle) (by simp)

theorem act (h : w.IsSound) {a : WatcherAct} (ha : a.IsOnFileTree) : (w.act a).1.IsSound := by
  cases a with
  | add disk p =>
    rw [PathWatcher.act]
    cases hadd : w.addPath disk p with
    | error e => exact h
    | ok added => exact h.addPath ha hadd
  | start disk runtime => exact h.start disk runtime
  | close => exact h.close
  | report disk report => exact h.notified disk report
  | failure e => exact h

end IsSound

theorem isSound_new (subfolders : Bool) (onChange : Option (Callback Change))
    (onError : Option (Callback WatchError)) : (new subfolders onChange onError).IsSound :=
  IsSound.of_idle (fun _ hp => nomatch hp) List.Pairwise.nil rfl

/-- **The invariant holds at every moment.** -/
theorem isSound_run (h : w.IsSound) {acts : List WatcherAct} (hacts : ∀ a ∈ acts, a.IsOnFileTree) :
    (w.run acts).IsSound := by
  induction acts generalizing w with
  | nil => exact h
  | cons a rest ih =>
    obtain ⟨hfirst, hrest⟩ := List.forall_mem_cons.1 hacts
    exact ih (h.act hfirst) hrest

/-! ## What a watcher keeps -/

theorem subfolders_act (w : PathWatcher) (a : WatcherAct) :
    (w.act a).1.subfolders = w.subfolders := by
  cases a with
  | add disk p =>
    rw [act]
    cases hadd : w.addPath disk p with
    | error e => rfl
    | ok added =>
      obtain ⟨resolved, after⟩ := added
      obtain ⟨roots, watched, rfl⟩ := exists_of_addPath hadd
      rfl
  | start disk runtime =>
    obtain ⟨watched, hclose⟩ := w.exists_close_eq
    rcases start_cases disk runtime w with ⟨-, e, -, heq⟩ | ⟨-, -, ⟨failure, -, heq⟩ | ⟨-, heq⟩⟩
    · rw [act, heq]
    · rw [act, heq, hclose]
    · rw [act, heq]
  | close =>
    obtain ⟨watched, hclose⟩ := w.exists_close_eq
    rw [act, hclose]
  | report disk report =>
    obtain ⟨watched, heq⟩ := exists_fst_notified_eq disk w report
    rw [act, heq]
  | failure e => rfl

/-- Whether it watches subfolders is settled when a watcher is made. -/
theorem subfolders_run (w : PathWatcher) (acts : List WatcherAct) :
    (w.run acts).subfolders = w.subfolders := by
  induction acts generalizing w with
  | nil => rfl
  | cons a rest ih => exact (ih (w.act a).1).trans (w.subfolders_act a)

/-- An act that does not end it leaves a running watcher running, with all it watched. -/
theorem keeps_act (hrun : w.running = true) {a : WatcherAct} (ha : a.ends = false) :
    (w.act a).1.running = true ∧ ∀ p ∈ w.watched, p ∈ (w.act a).1.watched := by
  cases a with
  | add disk p =>
    have hadd : w.addPath disk p = .error .alreadyStarted := if_pos hrun
    rw [act, hadd]
    exact ⟨hrun, fun _ hp => hp⟩
  | start disk runtime =>
    rcases start_cases disk runtime w with ⟨-, e, -, heq⟩ | ⟨-, hruntime, -⟩
    · rw [act, heq]
      exact ⟨hrun, fun _ hp => hp⟩
    · exact absurd (hruntime.symm.trans ha) (by simp)
  | close => cases ha
  | report disk report =>
    refine ⟨?_, fun p hp => watched_notified (P := fun watched => p ∈ watched)
      (fun _ _ => Path.mem_insertSorted) report hp⟩
    obtain ⟨watched, heq⟩ := exists_fst_notified_eq disk w report
    rw [act, heq, hrun]
  | failure e => exact ⟨hrun, fun _ hp => hp⟩

theorem keeps_run (hrun : w.running = true) {acts : List WatcherAct}
    (hacts : ∀ a ∈ acts, a.ends = false) :
    (w.run acts).running = true ∧ ∀ p ∈ w.watched, p ∈ (w.run acts).watched := by
  induction acts generalizing w with
  | nil => exact ⟨hrun, fun _ hp => hp⟩
  | cons a rest ih =>
    obtain ⟨hfirst, hrest⟩ := List.forall_mem_cons.1 hacts
    obtain ⟨hrun', hkept⟩ := keeps_act hrun hfirst
    obtain ⟨hlast, hall⟩ := ih hrun' hrest
    exact ⟨hlast, fun p hp => hall p (hkept p hp)⟩

/-! ## What a watcher refuses -/

/-- **Only a running watcher takes no more roots.** -/
theorem addPath_eq_alreadyStarted_iff {p : Path} :
    w.addPath disk p = .error .alreadyStarted ↔ w.running = true := by
  rw [addPath]
  split
  · rename_i hrun
    exact iff_of_true rfl hrun
  · rename_i hrun
    refine iff_of_false (fun h => ?_) hrun
    rw [resolvePath] at h
    cases hcanonical : disk.canonical p with
    | error fault =>
      rw [hcanonical] at h
      simp only [bind, Except.bind, Except.error.injEq] at h
      split at h <;> cases h
    | ok q =>
      rw [hcanonical] at h
      simp only [bind, Except.bind] at h
      split at h <;> cases h

/-- Callbacks are only called in a running watcher. -/
theorem running_of_isCall {a : WatcherAct} {effect : WatchEffect} (hmem : effect ∈ (w.act a).2)
    (hcall : effect.isCall = true) : w.running = true := by
  cases a with
  | add disk p =>
    rw [act] at hmem
    split at hmem <;> cases hmem
  | start disk runtime =>
    have hquiet : effect.isCall = false := by
      rcases start_cases disk runtime w with ⟨-, e, -, heq⟩ | ⟨-, -, ⟨failure, -, heq⟩ | ⟨-, heq⟩⟩
      · rw [act, heq] at hmem
        cases hmem
      · rw [act, heq] at hmem
        exact isCall_watchAll _ _ hmem
      · rw [act, heq] at hmem
        exact isCall_watchAll _ _ hmem
    exact absurd (hcall.symm.trans hquiet) (by simp)
  | close => cases hmem
  | report disk report =>
    rw [act, notified] at hmem
    split at hmem
    · assumption
    · cases hmem
  | failure e =>
    rw [act, notifiedError] at hmem
    split at hmem
    · assumption
    · cases hmem

/-- What can be relied on in a watcher at one moment of its life. -/
structure IsOrderly (w : PathWatcher) : Prop where
  /-- No root is there twice. -/
  isDistinct : Path.IsDistinct w.roots
  /-- While it does not run, the watched paths are the set of the roots. -/
  idle : w.running = false →
    w.watched = Path.sorted w.roots ∧ ∀ p, p ∈ w.watched ↔ p ∈ w.roots
  /-- The roots are always watched, and the watched paths are in order, each of them once. -/
  roots_watched : (∀ p ∈ w.roots, p ∈ w.watched) ∧ Path.IsAscending w.watched
  /-- While it runs, it loses no watched path, whatever happens, until it is closed or started
  anew. -/
  keeps : w.running = true → ∀ acts : List WatcherAct, (∀ a ∈ acts, a.ends = false) →
    (w.run acts).running = true ∧ ∀ p ∈ w.watched, p ∈ (w.run acts).watched
  /-- It takes no more roots exactly while it runs. -/
  alreadyStarted_iff : ∀ disk p, w.addPath disk p = .error .alreadyStarted ↔ w.running = true
  /-- A root that is not taken changes nothing. -/
  of_addPath_error : ∀ disk p e, w.addPath disk p = .error e → w.act (.add disk p) = (w, [])
  /-- A start that fails for want of roots or of a runtime changes nothing; one that fails at a path
  leaves the watcher not running, and the roots are what it watches. -/
  of_start_error : ∀ disk runtime e w' effects, w.start disk runtime = (.error e, w', effects) →
    ((e = .noPathsConfigured ∨ e = .noRuntime) ∧ w' = w ∧ effects = []) ∨
      ∃ failure, e = .notify failure ∧
        w' = { w with running := false, watched := Path.sorted w.roots }
  /-- Its callbacks are called only while it runs. -/
  running_of_call : ∀ a, ∀ effect ∈ (w.act a).2, effect.isCall = true → w.running = true

/-- **A watcher is orderly at every moment of its life**, whatever it is asked to do and whatever is
reported, on a disk that may be another one each time. -/
theorem isOrderly_of_acts (subfolders : Bool) (onChange : Option (Callback Change))
    (onError : Option (Callback WatchError)) {acts : List WatcherAct}
    (hacts : ∀ a ∈ acts, a.IsOnFileTree) :
    ((new subfolders onChange onError).run acts).IsOrderly := by
  have hsound := isSound_run (isSound_new subfolders onChange onError) hacts
  refine ⟨hsound.isDistinct, fun hidle => ?_, ⟨hsound.roots_watched, hsound.isAscending⟩,
    fun hrun more hmore => keeps_run hrun hmore, fun _ _ => addPath_eq_alreadyStarted_iff,
    fun disk p e hadd => ?_, fun disk runtime e w' effects hstart => ?_,
    fun a effect hmem hcall => running_of_isCall hmem hcall⟩
  · have hwatched := hsound.idle hidle
    exact ⟨hwatched, fun p => by rw [hwatched, Path.mem_sorted_iff hsound.isDistinct]⟩
  · rw [act, hadd]
  · rcases start_cases disk runtime ((new subfolders onChange onError).run acts) with
      ⟨-, reason, hreason, heq⟩ | ⟨-, -, ⟨failure, -, heq⟩ | ⟨-, heq⟩⟩
    · rw [heq] at hstart
      cases hstart
      exact .inl ⟨hreason, rfl, rfl⟩
    · rw [heq, hsound.close_eq] at hstart
      cases hstart
      exact .inr ⟨failure, rfl, rfl⟩
    · rw [heq] at hstart
      cases hstart

/-- A directory, and the directory with another one in it. -/
def oneDirectory : Disk := ⟨[([[114]], .dir)], []⟩

def twoDirectories : Disk := ⟨[([[114]], .dir), ([[114], [97]], .dir)], []⟩

/-- A directory is watched, another one appears in it, and when the watcher is started again both
are gone. -/
def failedRestart : List WatcherAct :=
  [.add oneDirectory ⟨[47, 114]⟩, .start oneDirectory true,
    .report twoDirectories ⟨.create, [⟨[47, 114, 47, 97]⟩]⟩, .start ⟨[], []⟩ true]

theorem isOrderly_of_failedRestart :
    (∀ a ∈ failedRestart, a.IsOnFileTree) ∧
      ((new true none none).run (failedRestart.take 3)).watched =
        [⟨[47, 114]⟩, ⟨[47, 114, 47, 97]⟩] ∧
      ((new true none none).run failedRestart).watched = [⟨[47, 114]⟩] ∧
      ((new true none none).run failedRestart).IsOrderly := by
  have htree : oneDirectory.IsFileTree := by decide
  have hacts : ∀ a ∈ failedRestart, a.IsOnFileTree := by
    intro a ha
    simp only [failedRestart, List.mem_cons, List.not_mem_nil, or_false] at ha
    rcases ha with rfl | rfl | rfl | rfl
    · exact htree
    · trivial
    · trivial
    · trivial
  exact ⟨hacts, rfl, rfl, isOrderly_of_acts true none none hacts⟩

end PathWatcher

end CertRotation
