import CertRotation.Proofs.Watch.Diversion

/-!
# Directories that are made again

When a directory is deleted, the system forgets that it was asked to watch it.  The watcher does
not: while it runs, its watched paths only grow, and it asks for none of them again.  So there are
two sets of paths, the one that the watcher keeps and the one that the system keeps, and they come
apart as soon as a directory is deleted.  If one is made again at the same path, the watcher takes
it for one that is watched.

* `WatchHistory`, `WatchHistory.step` — a watcher that runs on a disk that changes, all that it has
  done since it was started, and the watches that the system keeps;
* `WatchHistory.IsFaithful` — the invariant: the watched paths are those that the system has agreed
  to watch at any time since the start;
* `WatchHistory.asks_iff_of_created` — **when a directory that was created is asked for**;
* `WatchHistory.recreated_unwatched` — a directory that is made again and not watched.
-/

set_option autoImplicit false

namespace CertRotation

open PathWatcher (TakesIn visited)
open WatchEffect (asks granted)

theorem PathWatcher.isCall_notifiedError (w : PathWatcher) (e : NotifyError) :
    ∀ effect ∈ w.notifiedError e, effect.isCall = true := by
  rw [notifiedError, dispatchError]
  split
  · cases w.onError with
    | none => exact List.forall_mem_nil _
    | some callback => exact List.forall_mem_singleton.2 rfl
  · exact List.forall_mem_nil _

/-- A watcher that runs on a disk that changes. -/
structure WatchHistory where
  disk : Disk
  watcher : PathWatcher
  /-- All that the watcher has done since it was started. -/
  effects : List WatchEffect
  /-- The directories that have stood ever since the system agreed to watch them. -/
  standing : List Path

namespace WatchHistory

/-- Something that happens while a watcher runs. -/
inductive Occurrence where
  /-- The disk has become another one.  When a directory is deleted and made again, that is two of
  these. -/
  | turn (disk : Disk)
  | report (report : Notification)
  | failure (e : NotifyError)

/-- The history of a watcher that has just been started. -/
def ofStart (disk : Disk) (w : PathWatcher) (effects : List WatchEffect) : WatchHistory :=
  ⟨disk, w, effects, (granted effects).filter disk.hasDirAt⟩

/-- The history after an occurrence.  A watch of the system ends when the directory is gone. -/
def step (s : WatchHistory) : Occurrence → WatchHistory
  | .turn disk => { s with disk := disk, standing := s.standing.filter disk.hasDirAt }
  | .report report =>
    let (watcher, effects) := s.watcher.notified s.disk report
    { s with
      watcher := watcher
      effects := s.effects ++ effects
      standing := s.standing ++ (granted effects).filter s.disk.hasDirAt }
  | .failure e => { s with effects := s.effects ++ s.watcher.notifiedError e }

/-- The history after some occurrences. -/
def run (s : WatchHistory) (occurrences : List Occurrence) : WatchHistory :=
  occurrences.foldl step s

/-! ## The invariant -/

/-- The watcher runs and watches subfolders, and its watched paths are those that the system has
agreed to watch. -/
structure IsFaithful (s : WatchHistory) : Prop where
  running : s.watcher.running = true
  subfolders : s.watcher.subfolders = true
  watched (p : Path) : s.watcher.watched.any p.same = (granted s.effects).any p.same

variable {s : WatchHistory} {p : Path}

/-- It holds when a watcher has been started. -/
theorem isFaithful_ofStart {disk : Disk} {runtime : Bool} {w w' : PathWatcher}
    {effects : List WatchEffect} (hsub : w.subfolders = true)
    (hstart : w.start disk runtime = (.ok (), w', effects)) :
    (ofStart disk w' effects).IsFaithful := by
  rcases w.start_cases disk runtime with ⟨-, e, -, heq⟩ | ⟨-, -, ⟨failure, -, heq⟩ | ⟨hall, heq⟩⟩
  · rw [heq] at hstart
    cases hstart
  · rw [heq] at hstart
    cases hstart
  · rw [heq] at hstart
    cases hstart
    refine ⟨rfl, hsub, fun p => ?_⟩
    have hgranted : granted (PathWatcher.watchAll disk (w.expand disk)).1 = w.expand disk := by
      rw [(PathWatcher.watchAll_of_ok hall).1, granted, List.filterMap_map]
      exact List.filterMap_some
    rw [ofStart, hgranted]

/-- What happens in a step takes in the directories that a report brings. -/
theorem IsFaithful.takesIn (h : s.IsFaithful) (o : Occurrence) :
    ∃ effects ps, (s.step o).effects = s.effects ++ effects ∧
      TakesIn s.watcher (s.step o).watcher effects ps := by
  cases o with
  | turn disk => exact ⟨[], [], (List.append_nil _).symm, .of_calls nofun⟩
  | report report =>
    exact ⟨_, _, rfl, PathWatcher.takesIn_notified h.running h.subfolders s.disk report⟩
  | failure e => exact ⟨_, [], rfl, .of_calls (s.watcher.isCall_notifiedError e)⟩

theorem IsFaithful.step (h : s.IsFaithful) (o : Occurrence) : (s.step o).IsFaithful := by
  obtain ⟨effects, ps, heffects, htakes⟩ := h.takesIn o
  have hkept : (s.step o).watcher.running = true ∧ (s.step o).watcher.subfolders = true := by
    cases o with
    | turn disk => exact ⟨h.running, h.subfolders⟩
    | report report =>
      obtain ⟨watched, heq⟩ := PathWatcher.exists_fst_notified_eq s.disk s.watcher report
      rw [WatchHistory.step]
      dsimp only
      rw [heq]
      exact ⟨h.running, h.subfolders⟩
    | failure e => exact ⟨h.running, h.subfolders⟩
  refine ⟨hkept.1, hkept.2, fun p => ?_⟩
  rw [htakes.watched, h.watched, heffects, WatchEffect.granted_append, List.any_append]

theorem IsFaithful.run (h : s.IsFaithful) (occurrences : List Occurrence) :
    (s.run occurrences).IsFaithful := by
  induction occurrences generalizing s with
  | nil => exact h
  | cons o rest ih => exact ih (h.step o)

/-! ## What is never asked for again -/

/-- **What the system has agreed to once is not asked for again**, whatever happens. -/
theorem IsFaithful.exists_run_eq (h : s.IsFaithful)
    (hgranted : (granted s.effects).any p.same = true) (occurrences : List Occurrence) :
    ∃ effects, (s.run occurrences).effects = s.effects ++ effects ∧
      effects.any (asks p) = false := by
  induction occurrences generalizing s with
  | nil => exact ⟨[], (List.append_nil _).symm, rfl⟩
  | cons o rest ih =>
    obtain ⟨first, ps, hfirst, htakes⟩ := h.takesIn o
    have hnone : first.any (asks p) = false := by
      rw [htakes.asked, h.watched, hgranted, Bool.not_true, Bool.false_and]
    have hstill : (granted (s.step o).effects).any p.same = true := by
      rw [hfirst, WatchEffect.granted_append, List.any_append, hgranted, Bool.true_or]
    obtain ⟨second, hsecond, hnone'⟩ := ih (h.step o) hstill
    refine ⟨first ++ second, ?_, by rw [List.any_append, hnone, hnone', Bool.or_false]⟩
    show ((s.step o).run rest).effects = _
    rw [hsecond, hfirst, List.append_assoc]

/-! ## Created directories -/

/-- A report that a directory was created comes by it. -/
theorem any_visited_of_created {disk : Disk} {changes : List Change}
    (hcreated : ⟨p, .create⟩ ∈ changes) (hstands : disk.hasDirAt p = true) :
    (visited disk changes).any p.same = true := by
  have hbrings : Change.bringsDirectory disk ⟨p, .create⟩ = true := by
    simp [Change.bringsDirectory, Disk.isDir_of_hasDirAt hstands]
  refine List.any_eq_true.2 ⟨p, ?_, Path.same_refl p⟩
  exact List.mem_flatMap.2 ⟨_, List.mem_filter.2 ⟨hcreated, hbrings⟩,
    Disk.mem_directories_self hstands⟩

/-- **When a directory that was created is asked for.**  A watcher that watches subfolders was
started, and since then the disk has changed and reports have come in, in any order.  When a report
says that a directory was created, and it stands, the system is asked to watch it exactly if it has
not agreed to watch that path at any time since the start.

So after the report the directory has been asked for, or has stood ever since the system agreed to
watch it, exactly if the system had never agreed to it before the report or it had stood since then.
Once the system has agreed to a path it is not asked for it again, however often the directory is
deleted and made again. -/
theorem asks_iff_of_created {disk : Disk} {runtime : Bool} {w w' : PathWatcher}
    {effects : List WatchEffect} (hsub : w.subfolders = true)
    (hstart : w.start disk runtime = (.ok (), w', effects)) (occurrences : List Occurrence) :
    let s := (ofStart disk w' effects).run occurrences
    ∀ (report : Notification) (p : Path), ⟨p, .create⟩ ∈ report.changes s.disk →
      s.disk.hasDirAt p = true →
      let done := (s.watcher.notified s.disk report).2
      let after := s.step (.report report)
      (done.any (asks p) ↔ ¬ (granted s.effects).any p.same) ∧
      (done.any (asks p) ∨ after.standing.any p.same ↔
        ¬ (granted s.effects).any p.same ∨ s.standing.any p.same) ∧
      ((granted s.effects).any p.same → ∀ later, ∃ more,
        (after.run later).effects = s.effects ++ done ++ more ∧
          ¬ (done ++ more).any (asks p)) := by
  intro s report p hcreated hstands done after
  have hs : s.IsFaithful := (isFaithful_ofStart hsub hstart).run occurrences
  have hasked : done.any (asks p) = !(granted s.effects).any p.same := by
    rw [(PathWatcher.takesIn_notified hs.running hs.subfolders s.disk report).asked, hs.watched,
      any_visited_of_created hcreated hstands, Bool.and_true]
  have hiff : done.any (asks p) ↔ ¬ (granted s.effects).any p.same := by
    rw [hasked, Bool.not_eq_true', Bool.not_eq_true]
  refine ⟨hiff, ?_, fun hgranted later => ?_⟩
  · have hstanding : after.standing.any p.same ↔
        s.standing.any p.same ∨ ((granted done).filter s.disk.hasDirAt).any p.same := by
      rw [← Bool.or_eq_true, ← List.any_append]
      exact Iff.rfl
    have hasks : ((granted done).filter s.disk.hasDirAt).any p.same → done.any (asks p) := by
      intro h
      obtain ⟨q, hq, hsame⟩ := List.any_eq_true.1 h
      rw [WatchEffect.any_asks_eq, Bool.or_eq_true]
      exact .inl (List.any_eq_true.2 ⟨q, List.mem_of_mem_filter hq, hsame⟩)
    rw [hstanding, ← hiff]
    exact ⟨fun h => h.elim .inl fun h => h.elim .inr fun h => .inl (hasks h),
      fun h => h.imp_right .inl⟩
  · have hnone : done.any (asks p) = false := by rw [hasked, hgranted, Bool.not_true]
    have hafter : after.effects = s.effects ++ done := rfl
    have hstill : (granted after.effects).any p.same = true := by
      rw [hafter, WatchEffect.granted_append, List.any_append, hgranted, Bool.true_or]
    obtain ⟨more, hmore, hnone'⟩ := (hs.step _).exists_run_eq hstill later
    exact ⟨more, by rw [hmore, hafter], by simp [List.any_append, hnone, hnone']⟩

/-! ## A directory that is made again -/

/-- A root with a directory in it. -/
def fullRoot : Disk := ⟨[([[114]], .dir), ([[114], [100]], .dir)], []⟩

/-- The root without the directory. -/
def bareRoot : Disk := ⟨[([[114]], .dir)], []⟩

def innerDirectory : Path := ⟨[47, 114, 47, 100]⟩

/-- A watcher for the root and the directories in it. -/
def rootWatcher : PathWatcher := (PathWatcher.new true none none).run [.add fullRoot ⟨[47, 114]⟩]

/-- The watcher once it has been started. -/
def startedWatcher : PathWatcher :=
  { rootWatcher with running := true, watched := [⟨[47, 114]⟩, innerDirectory] }

/-- The directory is deleted and made again, and both are reported. -/
def madeAgain : List Occurrence :=
  [.turn bareRoot, .report ⟨.remove, [innerDirectory]⟩, .turn fullRoot]

/-- The directory is not asked for when it is made again, nor when it is another time. -/
theorem asks_iff_of_madeAgain :
    ∃ effects, rootWatcher.start fullRoot true = (.ok (), startedWatcher, effects) ∧
      let s := (ofStart fullRoot startedWatcher effects).run madeAgain
      (granted s.effects).any innerDirectory.same ∧
      ¬ (s.watcher.notified s.disk ⟨.create, [innerDirectory]⟩).2.any (asks innerDirectory) ∧
      ¬ (s.step (.report ⟨.create, [innerDirectory]⟩)).standing.any innerDirectory.same ∧
      ∃ more, ((s.step (.report ⟨.create, [innerDirectory]⟩)).run
            (madeAgain ++ [.report ⟨.create, [innerDirectory]⟩])).effects = s.effects ++ more ∧
        ¬ more.any (asks innerDirectory) := by
  have hstart : rootWatcher.start fullRoot true = (.ok (), startedWatcher,
      [.watch ⟨[47, 114]⟩ none, .watch innerDirectory none]) := rfl
  obtain ⟨hasks, hstanding, hnever⟩ := asks_iff_of_created rfl hstart madeAgain
    ⟨.create, [innerDirectory]⟩ innerDirectory (by decide) rfl
  have hgranted : (granted ((ofStart fullRoot startedWatcher
      [.watch ⟨[47, 114]⟩ none, .watch innerDirectory none]).run madeAgain).effects).any
        innerDirectory.same := by decide
  obtain ⟨more, hmore, hnone⟩ := hnever hgranted
    (madeAgain ++ [.report ⟨.create, [innerDirectory]⟩])
  refine ⟨_, hstart, hgranted, fun h => hasks.1 h hgranted, fun h => ?_,
    _ ++ more, by rw [hmore, List.append_assoc], hnone⟩
  exact (hstanding.1 (.inr h)).elim (fun h => h hgranted) (by decide)

/-- **A directory is made again and nobody watches it**: when its creation has been reported, the
system has not been asked for it, and it has not stood since the system agreed to watch it. -/
theorem recreated_unwatched :
    ∃ effects, rootWatcher.start fullRoot true = (.ok (), startedWatcher, effects) ∧
      let s := (ofStart fullRoot startedWatcher effects).run madeAgain
      s.disk.linkStat innerDirectory = .ok .dir ∧
      Notification.changes s.disk ⟨.create, [innerDirectory]⟩ = [⟨innerDirectory, .create⟩] ∧
      s.watcher.notified s.disk ⟨.create, [innerDirectory]⟩ = (startedWatcher, []) ∧
      (s.step (.report ⟨.create, [innerDirectory]⟩)).standing = [⟨[47, 114]⟩] :=
  ⟨_, rfl, rfl, rfl, rfl, rfl⟩

end WatchHistory

end CertRotation
