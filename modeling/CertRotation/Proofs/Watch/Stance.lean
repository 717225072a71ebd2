import CertRotation.Proofs.Watch.Coverage
import CertRotation.Proofs.Watch.Relay
import CertRotation.Proofs.Watch.Restart

/-!
# Where a watcher stands

Two parts of a rotator watch the disk, the loader of its directory and its notifier, and each has a
watcher of its own.  A `Stance` is what the two have in common: the roots, whether the directories
below them belong to it, and whether anything is watched at the moment.  Reports, timers and scans
leave a stance as it is.  Only starting and stopping turn it, and they turn nothing but the last of
the three.

* `Stance`, `PathWatcher.stance`, `Loader.stance` — where a watcher and a loader stand;
* `PathWatcher.fst_start_eq_ok_iff` — when a watcher can start;
* `PathWatcher.stance_start`, `Loader.stance_startWatching` — **a start turns a stance exactly if it
  succeeds**;
* `Loader.of_startWatching` — what there is on a disk on which a loader has started;
* `Notifier.stance_notified`, `Notifier.watcher_fireDue` — what a notifier does in between.
-/

set_option autoImplicit false

namespace CertRotation

/-- The roots of something that watches, whether it watches the directories below them as well, and
whether it watches at all. -/
structure Stance where
  roots : List Path
  subfolders : Bool
  watching : Bool

/-- The same place, watching or not. -/
def Stance.turn (s : Stance) (watching : Bool) : Stance := { s with watching := watching }

theorem Stance.turn_eq_self {s : Stance} {b : Bool} (h : s.watching = b) : s.turn b = s := by
  rw [← h]
  rfl

theorem resolvePath_eq_ok {disk : Disk} {p root : Path} :
    resolvePath disk p = .ok root ↔ disk.canonical p = .ok root := by
  rw [resolvePath]
  cases disk.canonical p <;> simp

/-! ## Watchers -/

namespace PathWatcher

variable {disk : Disk} {runtime : Bool} {w w' : PathWatcher}

/-- Where a watcher stands. -/
def stance (w : PathWatcher) : Stance := ⟨w.roots, w.subfolders, w.running⟩

/-- What is watched depends on where a watcher stands, and on nothing else. -/
theorem expand_congr (hroots : w'.roots = w.roots) (hsub : w'.subfolders = w.subfolders)
    (disk : Disk) : w'.expand disk = w.expand disk := by
  rw [expand, expand, hroots, hsub]

theorem watchAll_eq_none_iff {ps : List Path} :
    (watchAll disk ps).2 = none ↔ ∀ p ∈ ps, watchFailure? disk p = none := by
  refine ⟨fun h => (watchAll_of_ok h).2, fun h => ?_⟩
  induction ps with
  | nil => rfl
  | cons p ps ih =>
    obtain ⟨hfirst, hrest⟩ := List.forall_mem_cons.1 h
    rw [watchAll, hfirst]
    exact ih hrest

/-- **When a watcher can start**: it has roots, something can run later, and the system lets every
path be watched. -/
theorem fst_start_eq_ok_iff : (w.start disk runtime).1 = .ok () ↔
    w.roots ≠ [] ∧ runtime = true ∧ ∀ p ∈ w.expand disk, watchFailure? disk p = none := by
  rw [← watchAll_eq_none_iff]
  rcases w.start_cases disk runtime with
    ⟨hcannot, e, -, heq⟩ | ⟨hroots, hruntime, ⟨failure, hall, heq⟩ | ⟨hall, heq⟩⟩
  · rw [heq]
    refine iff_of_false nofun ?_
    rintro ⟨hroots, hruntime, -⟩
    exact hcannot.elim hroots (by simp [hruntime])
  · rw [heq, hall]
    exact iff_of_false nofun (by simp)
  · rw [heq]
    exact iff_of_true rfl ⟨hroots, hruntime, hall⟩

/-- A watcher that has roots and could run later can only fail at a path. -/
theorem fst_start_eq_notify {e : WatchError} (hroots : w.roots ≠ []) (hruntime : runtime = true)
    (h : (w.start disk runtime).1 = .error e) : ∃ failure, e = .notify failure := by
  rcases w.start_cases disk runtime with
    ⟨hcannot, -⟩ | ⟨-, -, ⟨failure, -, heq⟩ | ⟨-, heq⟩⟩
  · exact absurd hruntime (by simp [hcannot.resolve_left hroots])
  · rw [heq] at h
    exact ⟨failure, (Except.error.inj h).symm⟩
  · rw [heq] at h
    cases h

theorem stance_close (w : PathWatcher) : w.close.stance = w.stance.turn false := by
  obtain ⟨watched, hclose⟩ := w.exists_close_eq
  rw [hclose]
  rfl

/-- **A watcher that was not running runs after a start that succeeds**, and is where it was after
one that fails. -/
theorem stance_start (disk : Disk) (runtime : Bool) (hidle : w.running = false) :
    (w.start disk runtime).2.1.stance = w.stance.turn (w.start disk runtime).1.isOk := by
  have hstay : w.stance.turn false = w.stance := Stance.turn_eq_self hidle
  rcases w.start_cases disk runtime with
    ⟨-, e, -, heq⟩ | ⟨-, -, ⟨failure, -, heq⟩ | ⟨-, heq⟩⟩
  · rw [heq]
    exact hstay.symm
  · rw [heq]
    exact w.stance_close
  · rw [heq]
    rfl

theorem stance_notified (disk : Disk) (w : PathWatcher) (report : Notification) :
    (w.notified disk report).1.stance = w.stance := by
  obtain ⟨watched, heq⟩ := w.exists_fst_notified_eq disk report
  rw [heq]
  rfl

/-- A watcher without roots that has been given one stands there. -/
theorem stance_addPaths {p : Path} {resolved : List Path} (hroots : w.roots = [])
    (h : addPaths disk w [p] = .ok (resolved, w')) :
    ∃ root, disk.canonical p = .ok root ∧ w'.stance = { w.stance with roots := [root] } := by
  rw [addPaths, bind_eq_ok] at h
  obtain ⟨⟨found, added⟩, hadd, h⟩ := h
  cases h
  rw [addPath] at hadd
  split at hadd
  · cases hadd
  obtain ⟨root, hroot, hadd⟩ := bind_eq_ok.1 hadd
  rw [hroots, if_neg List.not_mem_nil] at hadd
  cases hadd
  exact ⟨_, resolvePath_eq_ok.1 hroot, rfl⟩

end PathWatcher

/-! ## Loaders -/

namespace Loader

variable {disk : Disk} {runtime : Bool} {l l' : Loader}

/-- Where a loader stands. -/
def stance (l : Loader) : Stance := ⟨l.roots, l.subfolders, l.isWatching⟩

/-- A new loader for one path stands at the place that the path leads to. -/
theorem stance_of_new {c : LoaderConfig} {p : Path} (hpaths : c.paths = [p])
    (h : Loader.new disk c = .ok l) :
    ∃ root, disk.canonical p = .ok root ∧ l.stance = ⟨[root], c.subfolders, false⟩ := by
  rw [Loader.new, hpaths, if_neg (by simp)] at h
  obtain ⟨roots, hroots, h⟩ := bind_eq_ok.1 h
  rw [resolveAll, List.mapM_cons] at hroots
  obtain ⟨root, hroot, hroots⟩ := bind_eq_ok.1 hroots
  cases hroots
  split at h
  · cases h
  split at h
  · cases h
  obtain ⟨marker, -, h⟩ := bind_eq_ok.1 h
  cases h
  exact ⟨root, resolvePath_eq_ok.1 hroot, rfl⟩

theorem stance_scan (disk : Disk) (l : Loader) : (l.scan disk).2.stance = l.stance := by
  rw [snd_scan]
  rfl

theorem startWatching_of_isWatching (hl : l.isWatching = true) :
    l.startWatching disk runtime = (.ok (), l) := if_pos hl

theorem stance_notified (disk : Disk) (l : Loader) (report : Notification) :
    (l.notified disk report).stance = l.stance := by
  cases hw : l.watcher with
  | none => rw [notified, hw]
  | some w =>
    have hwatching : l.isWatching = true := by rw [isWatching, hw]; rfl
    rw [notified, hw]
    dsimp only
    obtain ⟨store, hstore⟩ := exists_foldl_handle disk
      { l with watcher := some (w.notified disk report).1 }
      ((w.notified disk report).2.filterMap WatchEffect.change?)
    rw [hstore, stance, stance, hwatching]
    rfl

/-- **A loader watches after a start that succeeds**, and is where it was after one that fails. -/
theorem stance_startWatching (disk : Disk) (runtime : Bool) (l : Loader) :
    (l.startWatching disk runtime).2.stance =
      l.stance.turn (l.startWatching disk runtime).1.isOk := by
  cases hl : l.isWatching with
  | true =>
    rw [startWatching_of_isWatching hl]
    exact (Stance.turn_eq_self hl).symm
  | false =>
    obtain ⟨result, watcher, hresult, hstart⟩ := exists_startWatching_eq disk runtime hl
    have heq : l.startWatching disk runtime = _ := hstart l.store
    rw [heq]
    cases result with
    | ok => exact congrArg (Stance.mk l.roots l.subfolders) (hresult.1 rfl)
    | error e =>
      have hnone : watcher.isSome = false := Bool.eq_false_iff.2 fun h => nomatch hresult.2 h
      exact congrArg (Stance.mk l.roots l.subfolders) hnone

/-- **Where a loader has started**, its roots can be read and watched, and so can the directories
below them that belong to it. -/
theorem of_startWatching (hl : l.isWatching = false)
    (h : (l.startWatching disk runtime).1 = .ok ()) :
    (l.scan disk).1 = .ok () ∧ runtime = true ∧
      ∃ resolved w, PathWatcher.addPaths disk l.newWatcher l.roots = .ok (resolved, w) ∧
        ∀ p ∈ w.expand disk, watchFailure? disk p = none := by
  rw [startWatching, if_neg (by simp [hl])] at h
  split at h
  · cases h
  rename_i scanned hscan
  have hsame : scanned.newWatcher = l.newWatcher ∧ scanned.roots = l.roots := by
    have hscanned : scanned = _ := (congrArg Prod.snd hscan).symm.trans snd_scan
    rw [hscanned]
    exact ⟨rfl, rfl⟩
  rw [hsame.1, hsame.2] at h
  split at h
  · cases h
  rename_i resolved w hadd
  have hstart : (w.start disk runtime).1 = .ok () := by
    split at h
    · cases h
    · rename_i heq
      rw [heq]
  obtain ⟨-, hruntime, hall⟩ := PathWatcher.fst_start_eq_ok_iff.1 hstart
  exact ⟨by rw [hscan], hruntime, resolved, w, hadd, hall⟩

end Loader

/-! ## Notifiers -/

namespace Notifier

variable {L : Type} {n : Notifier L}

/-- A new notifier for one path stands at the place that the path leads to. -/
theorem stance_of_new {disk : Disk} {c : NotifierConfig} {limiter : L} {p : Path}
    (hpaths : c.paths = [p]) (h : Notifier.new disk c limiter = .ok n) :
    ∃ root, disk.canonical p = .ok root ∧ n.watcher.stance = ⟨[root], c.subfolders, false⟩ := by
  obtain ⟨-, -, -, hadd⟩ := of_new h
  rw [hpaths] at hadd
  exact PathWatcher.stance_addPaths rfl hadd

/-- Delivering, and the timers that ask for it, have nothing to do with the watcher. -/
theorem watcher_flushChanges (n : Notifier L) : n.flushChanges.1.watcher = n.watcher := by
  rw [flushChanges]
  split
  · rfl
  · rfl

theorem watcher_pushChange [Limiter L] (now : Instant) (runtime : Bool) (change : Change) :
    (n.pushChange now runtime change).1.watcher = n.watcher := by
  have hfirst : ∀ (granted : Bool) (m : Notifier L), m.watcher = n.watcher →
      (if granted then m.flushChanges else (m, [])).1.watcher = n.watcher := by
    intro granted m hm
    split
    · exact (watcher_flushChanges m).trans hm
    · exact hm
  rw [pushChange]
  dsimp only
  split
  · exact hfirst _ _ rfl
  · exact (watcher_flushChanges _).trans (hfirst _ _ rfl)

theorem watcher_pushError [Limiter L] (now : Instant) (runtime : Bool) (e : WatchError) :
    (n.pushError now runtime e).1.watcher = n.watcher := by
  obtain ⟨lane, -, heq⟩ := n.exists_fst_pushError now runtime e
  rw [heq]

theorem watcher_fireChanges (task : TimerTask) :
    (n.fireChanges task).1.watcher = n.watcher := by
  rw [fireChanges]
  split
  · exact watcher_flushChanges _
  · rfl

theorem watcher_fireErrors (task : TimerTask) : (n.fireErrors task).1.watcher = n.watcher := by
  obtain ⟨errors, heq⟩ := n.exists_fireErrors task
  rw [heq]

theorem watcher_steps {α : Type} {step : Notifier L → α → Notifier L × List Delivery}
    (hstep : ∀ (n : Notifier L) (a : α), (step n a).1.watcher = n.watcher) (todo : List α) :
    (steps step n todo).1.watcher = n.watcher := by
  induction todo generalizing n with
  | nil => rfl
  | cons a todo ih => exact ih.trans (hstep n a)

theorem watcher_fireDue (n : Notifier L) (now : Instant) :
    (n.fireDue now).1.watcher = n.watcher :=
  (watcher_steps (fun _ task => watcher_fireErrors task) _).trans
    (watcher_steps (fun _ task => watcher_fireChanges task) _)

theorem watcher_takeIn [Limiter L] (now : Instant) (runtime : Bool) (effects : List WatchEffect) :
    (n.takeIn now runtime effects).1.watcher = n.watcher := by
  refine watcher_steps (fun n effect => ?_) effects
  cases effect with
  | watch p failure => rfl
  | change change call => exact watcher_pushChange now runtime change
  | error e call => exact watcher_pushError now runtime e

/-- A report adds to the watched paths, but does not turn the watcher. -/
theorem stance_notified [Limiter L] (n : Notifier L) (disk : Disk) (now : Instant)
    (report : Notification) :
    (n.notified disk now report).1.watcher.stance = n.watcher.stance := by
  rw [notified]
  split
  · rename_i hrun
    have hkept := n.watcher.stance_notified disk report
    rw [PathWatcher.notified, if_pos (show n.watcher.running = true from hrun)] at hkept
    rw [dispatch, watcher_takeIn]
    exact hkept
  · rfl

theorem watcher_notifiedError [Limiter L] (n : Notifier L) (now : Instant) (e : NotifyError) :
    (n.notifiedError now e).1.watcher = n.watcher := by
  rw [notifiedError]
  split
  · exact watcher_takeIn now true _
  · rfl

end Notifier

end CertRotation
