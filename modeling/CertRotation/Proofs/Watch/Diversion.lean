import CertRotation.Proofs.Disk.Links
import CertRotation.Proofs.Watch.Coverage

/-!
# What becomes of a change

A running watcher hands a change on to its callback, or, if a directory appeared and it watches
subfolders, diverts it and takes the directory in.  What is diverted is not reported to anybody, so
it had better leave its mark on the watched paths.

Whether a change is diverted and what is then taken in are two questions, though, and they are put
to the system in two ways.  The first follows a link at the end of a path and the second does not.
They agree wherever a directory stands.  Where a link to a directory stands, the change is diverted,
what lies below the directory is taken in, and the link itself is not: nothing tells that it has
appeared.

* `PathWatcher.TakesIn`, `PathWatcher.takesIn_notified` — what the system is asked for;
* `PathWatcher.keeps`, `PathWatcher.TakesIn.keeps_eq` — what leaves its mark;
* `PathWatcher.reportAll` — a watcher and some reports, one after the other;
* `PathWatcher.fate_of_changes` — **what becomes of every change**;
* `PathWatcher.link_swallowed` — a link that nobody hears of.
-/

set_option autoImplicit false

namespace CertRotation

/-! ## What a watcher asks for -/

/-- The change is that something was created where a path leads to a directory. -/
def Change.bringsDirectory (disk : Disk) (change : Change) : Bool :=
  change.op = .create && disk.isDir change.path

namespace WatchEffect

/-- The path that the system agreed to watch. -/
def granted? : WatchEffect → Option Path
  | watch p none => some p
  | _ => none

/-- The paths that the system agreed to watch, in order. -/
def granted (effects : List WatchEffect) : List Path := effects.filterMap granted?

/-- The system was asked to watch the path and refused. -/
def refuses (p : Path) : WatchEffect → Bool
  | watch q (some _) => p.same q
  | _ => false

theorem granted_append (before after : List WatchEffect) :
    granted (before ++ after) = granted before ++ granted after :=
  List.filterMap_append

/-- Whatever the system is asked for, it agrees to or refuses. -/
theorem any_asks_eq (p : Path) (effects : List WatchEffect) :
    effects.any (asks p) = ((granted effects).any p.same || effects.any (refuses p)) := by
  induction effects with
  | nil => rfl
  | cons effect rest ih =>
    have hgranted : granted (effect :: rest) = granted [effect] ++ granted rest :=
      granted_append [effect] rest
    rw [List.any_cons, List.any_cons, ih, hgranted, List.any_append]
    rcases effect with ⟨q, _ | failure⟩ | ⟨change, call⟩ | ⟨e, call⟩
    · simp [granted, granted?, asks, refuses, Bool.or_assoc]
    · simp [granted, granted?, asks, refuses, Bool.or_left_comm]
    · simp [granted, granted?, asks, refuses]
    · simp [granted, granted?, asks, refuses]

end WatchEffect

open WatchEffect (granted)

namespace PathWatcher

variable {disk : Disk} {w w' : PathWatcher} {p : Path} {effects : List WatchEffect}
  {ps : List Path}

/-- From one watcher to the next the system is asked for those of some paths that are not watched,
and what it agrees to comes to be watched. -/
structure TakesIn (w w' : PathWatcher) (effects : List WatchEffect) (ps : List Path) : Prop where
  watched (p : Path) :
    w'.watched.any p.same = (w.watched.any p.same || (granted effects).any p.same)
  asked (p : Path) : effects.any (WatchEffect.asks p) = (!w.watched.any p.same && ps.any p.same)

namespace TakesIn

/-- Calls of callbacks take nothing in. -/
theorem of_calls (h : ∀ effect ∈ effects, effect.isCall = true) : TakesIn w w effects [] := by
  have hnothing (p : Path) : effects.any (WatchEffect.asks p) = false := by
    refine List.any_eq_false.2 fun effect heffect => ?_
    have hcall := h effect heffect
    cases effect with
    | watch q failure => cases hcall
    | change change call => exact Bool.false_ne_true
    | error e call => exact Bool.false_ne_true
  refine ⟨fun p => ?_, fun p => ?_⟩
  · have hnone := (WatchEffect.any_asks_eq p effects).symm.trans (hnothing p)
    rw [(Bool.or_eq_false_iff.1 hnone).1, Bool.or_false]
  · rw [hnothing, List.any_nil, Bool.and_false]

/-- What is watched is not asked for. -/
theorem of_watched {q : Path} (h : w.watched.any q.same = true) : TakesIn w w [] [q] := by
  refine ⟨fun p => (Bool.or_false _).symm, fun p => ?_⟩
  cases hsame : p.same q with
  | false => simp [hsame]
  | true => simp [Path.any_same_congr hsame, h]

/-- What is not watched is asked for, and watched if the system agrees. -/
theorem of_asked {q : Path} (h : w.watched.any q.same = false) (failure : Option NotifyError) :
    TakesIn w (if failure.isNone then { w with watched := q.insertSorted w.watched } else w)
      [.watch q failure] [q] := by
  refine ⟨fun p => ?_, fun p => ?_⟩
  · cases failure with
    | none => simp [Path.any_same_insertSorted_eq, granted, WatchEffect.granted?, Bool.or_comm]
    | some failure => simp [granted, WatchEffect.granted?]
  · cases hsame : p.same q with
    | false => simp [WatchEffect.asks, hsame]
    | true => simp [WatchEffect.asks, hsame, Path.any_same_congr hsame, h]

/-- What is taken in one after the other. -/
theorem trans {w₁ w₂ : PathWatcher} {first second : List WatchEffect} {ps qs : List Path}
    (h : TakesIn w w₁ first ps) (h' : TakesIn w₁ w₂ second qs) :
    TakesIn w w₂ (first ++ second) (ps ++ qs) := by
  refine ⟨fun p => ?_, fun p => ?_⟩
  · rw [h'.watched, h.watched, WatchEffect.granted_append, List.any_append, Bool.or_assoc]
  · have hfirst := h.asked p
    rw [List.any_append, List.any_append, h'.asked, h.watched]
    cases hwatched : w.watched.any p.same with
    | true => simp [hfirst, hwatched]
    | false =>
      -- A path that was granted in the first place is one of the first paths.
      have hgranted : (granted first).any p.same = true → ps.any p.same = true := by
        intro hgranted
        rw [WatchEffect.any_asks_eq, hgranted, hwatched] at hfirst
        simpa using hfirst.symm
      rw [hfirst, hwatched]
      cases hsome : (granted first).any p.same with
      | false => simp
      | true => simp [hgranted hsome]

end TakesIn

theorem takesIn_absorbAll (disk : Disk) (w : PathWatcher) (ps : List Path) :
    TakesIn w (absorbAll disk w ps).1 (absorbAll disk w ps).2 ps := by
  induction ps generalizing w with
  | nil => exact .of_calls nofun
  | cons q ps ih =>
    rw [absorbAll]
    split
    · rename_i hthere
      exact (TakesIn.of_watched hthere).trans (ih w)
    · rename_i hnew
      exact (TakesIn.of_asked (Bool.not_eq_true _ ▸ hnew) (watchFailure? disk q)).trans (ih _)

/-- The directories that a watcher comes by as it handles some changes. -/
def visited (disk : Disk) (changes : List Change) : List Path :=
  (changes.filter (Change.bringsDirectory disk)).flatMap fun change =>
    disk.directories change.path true

theorem takesIn_handle (hrun : w.running = true) (hsub : w.subfolders = true) (disk : Disk)
    (change : Change) :
    TakesIn w (w.handle disk change).1 (w.handle disk change).2 (visited disk [change]) := by
  rw [handle, visited, List.filter_singleton]
  by_cases hbrings : change.bringsDirectory disk
  · have hdivert : w.subfolders ∧ change.op = .create ∧ disk.isDir change.path := by
      simpa [Change.bringsDirectory, hsub] using hbrings
    rw [if_pos hdivert, absorb, if_pos hrun, hbrings, cond_true, List.flatMap_singleton]
    exact takesIn_absorbAll disk w _
  · have hpass : ¬ (w.subfolders ∧ change.op = .create ∧ disk.isDir change.path) := by
      simpa [Change.bringsDirectory, hsub] using hbrings
    rw [if_neg hpass, Bool.eq_false_iff.2 hbrings, cond_false]
    refine TakesIn.of_calls ?_
    cases w.onChange with
    | none => exact List.forall_mem_nil _
    | some callback => exact List.forall_mem_singleton.2 rfl

/-- **What handling changes takes in** are the directories that the watcher comes by. -/
theorem takesIn_handleAll (hrun : w.running = true) (hsub : w.subfolders = true) (disk : Disk)
    (changes : List Change) :
    TakesIn w (w.handleAll disk changes).1 (w.handleAll disk changes).2 (visited disk changes) := by
  induction changes generalizing w with
  | nil => exact .of_calls nofun
  | cons change rest ih =>
    have hfirst := takesIn_handle hrun hsub disk change
    obtain ⟨watched, first, hhandle, -⟩ := w.exists_handle_eq disk change
    rw [hhandle] at hfirst
    have hvisited : visited disk (change :: rest) = visited disk [change] ++ visited disk rest := by
      rw [visited, visited, visited, ← List.flatMap_append, ← List.filter_append]
      rfl
    rw [handleAll, hhandle, hvisited]
    exact hfirst.trans (ih (w := { w with watched := watched }) hrun hsub)

/-- What a report of the system takes in. -/
theorem takesIn_notified (hrun : w.running = true) (hsub : w.subfolders = true) (disk : Disk)
    (report : Notification) :
    TakesIn w (w.notified disk report).1 (w.notified disk report).2
      (visited disk (report.changes disk)) := by
  rw [notified, if_pos hrun, dispatch]
  exact takesIn_handleAll hrun hsub disk _

/-! ## What leaves its mark -/

/-- What a watcher and what it did tell of a path: it is watched, or the system refused it. -/
def keeps (p : Path) (w : PathWatcher) (effects : List WatchEffect) : Bool :=
  w.watched.any p.same || effects.any (WatchEffect.refuses p)

/-- **What is taken in leaves its mark**, and nothing else that was not watched does. -/
theorem TakesIn.keeps_eq (h : TakesIn w w' effects ps) (p : Path) :
    keeps p w' effects = (w.watched.any p.same || ps.any p.same) := by
  rw [keeps, h.watched, Bool.or_assoc, ← WatchEffect.any_asks_eq, h.asked]
  cases w.watched.any p.same with
  | false => rfl
  | true => rfl

/-! ## Reports in a row -/

/-- The watcher after some reports, each with the disk as it is then, and what it did. -/
def reportAll : PathWatcher → List (Disk × Notification) → PathWatcher × List WatchEffect
  | w, [] => (w, [])
  | w, (disk, report) :: rest =>
    let (w, first) := w.notified disk report
    let (w, effects) := reportAll w rest
    (w, first ++ effects)

theorem exists_reportAll_eq (w : PathWatcher) (reports : List (Disk × Notification)) :
    ∃ watched effects, w.reportAll reports = ({ w with watched := watched }, effects) ∧
      ∀ p ∈ w.watched, p ∈ watched := by
  induction reports generalizing w with
  | nil => exact ⟨w.watched, [], rfl, fun _ hp => hp⟩
  | cons r rest ih =>
    obtain ⟨disk, report⟩ := r
    have hstep : ∀ p ∈ w.watched, p ∈ (w.notified disk report).1.watched := fun p hp =>
      watched_notified (P := fun watched => p ∈ watched) (fun _ _ => Path.mem_insertSorted)
        report hp
    obtain ⟨middle, hmiddle⟩ := exists_fst_notified_eq disk w report
    rw [reportAll]
    rcases hreport : w.notified disk report with ⟨w', first⟩
    rw [hreport] at hmiddle hstep
    cases hmiddle
    obtain ⟨watched, effects, hrest, hkept⟩ := ih { w with watched := middle }
    exact ⟨watched, first ++ effects, by simp only [hrest], fun p hp => hkept p (hstep p hp)⟩

theorem reportAll_append (w : PathWatcher) (before after : List (Disk × Notification)) :
    w.reportAll (before ++ after) =
      let (w, first) := w.reportAll before
      let (w, effects) := w.reportAll after
      (w, first ++ effects) := by
  induction before generalizing w with
  | nil => rfl
  | cons r rest ih =>
    obtain ⟨disk, report⟩ := r
    simp only [List.cons_append, reportAll, ih, List.append_assoc]

/-- **What is handed on** are the changes that bring no directory, in their order. -/
theorem change?_reportAll {callback : Callback Change} (hrun : w.running = true)
    (hsub : w.subfolders = true) (hcall : w.onChange = some callback)
    (reports : List (Disk × Notification)) :
    (w.reportAll reports).2.filterMap WatchEffect.change? =
      reports.flatMap fun r => (r.2.changes r.1).filter fun c => !c.bringsDirectory r.1 := by
  induction reports generalizing w with
  | nil => rfl
  | cons r rest ih =>
    obtain ⟨disk, report⟩ := r
    obtain ⟨watched, effects, hhandle, hcalls⟩ := w.exists_handleAll_eq disk (report.changes disk)
    have hhands : w.handsOn disk = fun c => !c.bringsDirectory disk := by
      funext c
      simp [handsOn, Change.bringsDirectory, hsub, hcall]
    have hrest := ih (w := { w with watched := watched }) hrun hsub hcall
    rw [reportAll, notified, if_pos hrun, dispatch, hhandle, List.flatMap_cons]
    simp only [List.filterMap_append, hcalls, hrest, hhands]

/-- The paths that a report leaves its mark on. -/
theorem keeps_notified_iff (hrun : w.running = true) (hsub : w.subfolders = true)
    {report : Notification} {after : PathWatcher} {effects : List WatchEffect}
    (h : w.notified disk report = (after, effects)) (p : Path) :
    keeps p after effects ↔ w.watched.any p.same ∨
      ∃ change ∈ report.changes disk, change.bringsDirectory disk ∧
        (disk.directories change.path true).any p.same := by
  have htakes := takesIn_notified hrun hsub disk report
  rw [h] at htakes
  rw [htakes.keeps_eq, Bool.or_eq_true, visited]
  simp only [List.any_flatMap, List.any_eq_true, List.mem_filter, and_assoc]

/-- **What becomes of every change.**  While a watcher runs that watches subfolders and has a
callback, whether or not its calls panic, the callback is called for the changes that bring no
directory, for each of them once and in their order.

A change that brings a directory is a creation where a directory stands or a link that leads to one.
After its report its path is watched, or the system has refused to watch it, exactly if it was
watched before or the walks through what the report brings have come by it as a directory.  So it is
wherever a directory stands, and what is watched stays watched. -/
theorem fate_of_changes {callback : Callback Change} (hrun : w.running = true)
    (hsub : w.subfolders = true) (hcall : w.onChange = some callback)
    (reports : List (Disk × Notification)) :
    (w.reportAll reports).2.filterMap WatchEffect.change? =
        reports.flatMap (fun r => (r.2.changes r.1).filter fun c => !c.bringsDirectory r.1) ∧
      ∀ earlier disk report later, reports = earlier ++ (disk, report) :: later →
        ∀ before after effects, (w.reportAll earlier).1 = before →
          before.notified disk report = (after, effects) →
          (∀ p ∈ after.watched, p ∈ (w.reportAll reports).1.watched) ∧
          ∀ change ∈ report.changes disk, change.bringsDirectory disk →
            change.op = .create ∧
            (disk.hasDirAt change.path = true ∨
              ∃ target, disk.linkStat change.path = .ok (.link target)) ∧
            (disk.hasDirAt change.path = true → keeps change.path after effects) ∧
            (keeps change.path after effects ↔ before.watched.any change.path.same ∨
              ∃ other ∈ report.changes disk, other.bringsDirectory disk ∧
                (disk.directories other.path true).any change.path.same) := by
  refine ⟨change?_reportAll hrun hsub hcall reports, ?_⟩
  rintro earlier disk report later rfl before after effects hbefore hreport
  obtain ⟨watched, done, hearlier, -⟩ := w.exists_reportAll_eq earlier
  obtain rfl : { w with watched := watched } = before := by rw [← hbefore, hearlier]
  refine ⟨fun p hp => ?_, fun change hchange hbrings => ?_⟩
  · obtain ⟨last, more, hlater, hkept⟩ := after.exists_reportAll_eq later
    rw [reportAll_append, hearlier]
    simp only [reportAll, hreport, hlater]
    exact hkept p hp
  · obtain ⟨hcreate, hdir⟩ : change.op = .create ∧ disk.isDir change.path = true := by
      simpa [Change.bringsDirectory] using hbrings
    have hkeeps := keeps_notified_iff (w := { w with watched := watched }) hrun hsub hreport
      change.path
    have hstands : disk.hasDirAt change.path = true ∨
        ∃ target, disk.linkStat change.path = .ok (.link target) := by
      refine (disk.linkStat_eq_stat_or change.path).imp_left fun hsame => ?_
      obtain ⟨entry, hentry, hisDir⟩ := Disk.isDir_iff_stat.1 hdir
      exact Disk.hasDirAt_iff.2 ⟨entry, hsame.trans hentry, hisDir⟩
    refine ⟨hcreate, hstands, fun hreal => hkeeps.2 (.inr ?_), hkeeps⟩
    exact ⟨change, hchange, hbrings,
      List.any_eq_true.2 ⟨_, Disk.mem_directories_self hreal, Path.same_refl _⟩⟩

/-! ## A link that nobody hears of -/

/-- A directory that is mounted, with a file and a link in it, and the directory that the link leads
to. -/
def mountedTree : Disk :=
  ⟨[([[109]], .dir), ([[118]], .dir), ([[109], [102]], .file []), ([[109], [100]], .dir),
    ([[109], [108]], .link [47, 118])], []⟩

def mountedFile : Path := ⟨[47, 109, 47, 102]⟩

def mountedDirectory : Path := ⟨[47, 109, 47, 100]⟩

def mountedLink : Path := ⟨[47, 109, 47, 108]⟩

/-- A watcher that was started when the mounted directory was empty, with a callback that panics. -/
def mountWatcher : PathWatcher :=
  (new true (some fun _ => .panicked .value) none).run
    [.add ⟨[([[109]], .dir)], []⟩ ⟨[47, 109]⟩, .start ⟨[([[109]], .dir)], []⟩ true]

/-- The watcher once the directory in it is watched. -/
def mountWatcherThen : PathWatcher :=
  { mountWatcher with watched := [⟨[47, 109]⟩, mountedDirectory] }

/-- A directory, a file and a link appear: the first is watched, the second is handed on, and of the
third nothing is left. -/
theorem fate_of_mounted :
    (mountWatcher.reportAll [(mountedTree, ⟨.create, [mountedDirectory, mountedFile]⟩),
        (mountedTree, ⟨.create, [mountedLink]⟩)]).2.filterMap WatchEffect.change? =
      [⟨mountedFile, .create⟩] ∧
    mountWatcher.notified mountedTree ⟨.create, [mountedDirectory, mountedFile]⟩ =
      (mountWatcherThen,
        [.watch mountedDirectory none, .change ⟨mountedFile, .create⟩ (.panicked .value)]) ∧
    keeps mountedDirectory mountWatcherThen
      [.watch mountedDirectory none, .change ⟨mountedFile, .create⟩ (.panicked .value)] ∧
    mountWatcherThen.notified mountedTree ⟨.create, [mountedLink]⟩ = (mountWatcherThen, []) ∧
    ¬ keeps mountedLink mountWatcherThen [] := by
  have hcall : mountWatcher.onChange = some fun _ => .panicked .value := rfl
  obtain ⟨hcalls, hfate⟩ := fate_of_changes rfl rfl hcall
    [(mountedTree, ⟨.create, [mountedDirectory, mountedFile]⟩),
      (mountedTree, ⟨.create, [mountedLink]⟩)]
  refine ⟨hcalls, rfl, ?_, rfl, ?_⟩
  · obtain ⟨-, hchanges⟩ := hfate [] _ _ _ rfl mountWatcher _ _ rfl rfl
    obtain ⟨-, -, hstands, -⟩ := hchanges ⟨mountedDirectory, .create⟩ (by decide) (by decide)
    exact hstands rfl
  · obtain ⟨-, hchanges⟩ := hfate [_] _ _ [] rfl mountWatcherThen mountWatcherThen [] rfl rfl
    obtain ⟨-, -, -, hkeeps⟩ := hchanges ⟨mountedLink, .create⟩ (by decide) (by decide)
    exact fun h => absurd (hkeeps.1 h) (by decide)

/-- **A link to a directory appears and is swallowed**: nothing is called, nothing is asked of the
system, and its path is not watched. -/
theorem link_swallowed : mountWatcher.running = true ∧ mountWatcher.subfolders = true ∧
    mountWatcher.onChange.isSome ∧
    Notification.changes mountedTree ⟨.create, [mountedLink]⟩ = [⟨mountedLink, .create⟩] ∧
    mountedTree.linkStat mountedLink = .ok (.link [47, 118]) ∧
    ∃ w, mountWatcher.notified mountedTree ⟨.create, [mountedLink]⟩ = (w, []) ∧
      ¬ w.watched.any mountedLink.same :=
  ⟨rfl, rfl, rfl, rfl, rfl, mountWatcher, rfl, by decide⟩

end PathWatcher

end CertRotation
