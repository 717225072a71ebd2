import CertRotation.Proofs.Rotation.Following
import CertRotation.Proofs.Watch.Signals
import CertRotation.Rotation.Rotator
import Mathlib.Data.List.Infix
import Mathlib.Logic.Relation

/-!
# What a rotator has published when all is quiet

A rotator hears of a change twice: its directory takes in the report to keep its store in step, and
its notifier takes in the same report to ask for a reload.  The two work through their own queues,
and either may be ahead.  A reload loads what is there again, and leaves what is gone to the
reports.

* `RotatorWorld.Step` — changes of files, the two queues, timers and reloads, in any order;
* `RotatorWorld.KeepsUp` — the invariant: either something is on the way that will lead to a reload,
  or the last reload saw the files as they are, and since then the store has changed only by the
  reports that the directory took in late;
* `RotatorWorld.outcome_iff` — so when all is quiet, what has been published is what the store would
  give if and only if the late reports made no difference; and it is, if the notifier has never been
  ahead of the directory, or if none of the late reports is of a removal;
* `RotatorWorld.removal_unpublished` — a removal that the notifier hears of first is never
  published.
-/

set_option autoImplicit false

namespace CertRotation

namespace ReloadQueue

theorem isIdle_iff {q : ReloadQueue} :
    q.isIdle ↔ q.scheduled = 0 ∧ q.running = none ∧ q.waiting = [] := by
  simp [isIdle, and_assoc]

theorem isIdle_schedule {q : ReloadQueue} {count : Nat} (h : q.isIdle = false ∨ 0 < count) :
    (q.schedule count).isIdle = false := by
  rw [← Bool.not_eq_true, isIdle_iff] at *
  rintro ⟨hscheduled, hrest⟩
  rw [schedule, Nat.add_eq_zero_iff] at hscheduled
  rcases h with h | h
  · exact h ⟨hscheduled.1, hrest⟩
  · omega

/-- A queue to which a reload has come is not idle. -/
theorem isIdle_enter (q : ReloadQueue) (now : Instant) (requester : Requester) :
    (q.enter now requester).isIdle = false := by
  rw [enter]
  split
  · simp [isIdle]
  · simp [isIdle]

end ReloadQueue

/-! ## Reloading a directory that stands -/

namespace Rotator

variable {L : Type} {r r' : Rotator L}

/-- **A rotator that watches**: its directory follows changes, and its notifier only signals. -/
theorem of_watch {before disk : Disk} {s : RotationSettings} {readers : Readers}
    {policy : RetryPolicy} {limiter : L} {root : Location}
    (hroot : before.canonical s.certDir = .ok (Disk.pathOf root))
    (hnew : Rotator.new before s readers policy limiter = .ok r)
    (hwatch : r.watch disk true = (.ok (), r')) :
    r'.directory.Follows root ∧ r'.notifier.IsSignalling := by
  rw [Rotator.new, bind_eq_ok] at hnew
  obtain ⟨directory, hdirectory, hnew⟩ := hnew
  rw [fromDirectory] at hnew
  split at hnew
  · cases hnew
  rename_i notifier hnotifier
  cases hnew
  have hidle : notifier.isWatching = false := by
    obtain ⟨-, -, -, hadd⟩ := Notifier.of_new hnotifier
    exact (PathWatcher.addPaths_ok hadd).2
  rw [watch] at hwatch
  split at hwatch
  · cases hwatch
  · rename_i started hstart
    have hfollows := CertDirectory.follows_of_start hroot hdirectory hstart
    dsimp only at hwatch
    rw [hidle, if_neg Bool.false_ne_true] at hwatch
    cases hnotifierStart : notifier.startWatching disk true with
    | mk answer watching =>
      simp only [hnotifierStart] at hwatch
      cases answer with
      | error e => cases hwatch
      | ok =>
        cases hwatch
        have hsignalling :=
          Notifier.isSignalling_of_startWatching rfl rfl hnotifier hnotifierStart
        exact ⟨hfollows, hsignalling.1⟩

/-- The rotator whose notifier has come to a new state with some calls. -/
def fired (r : Rotator L) (answer : Notifier L × List Delivery) : Rotator L :=
  takeSignals { r with notifier := answer.1 } true answer.2

/-- What a rotator shows to the world after a reload with the given outcome: new material is in
place and no error is recorded, or the message of the error is. -/
def Shows (r : Rotator L) : ReloadOutcome → Prop
  | .ok material => r.current = some material ∧ r.status.lastError = none
  | .error e => r.status.lastError = some e.message

theorem shows_record (outcome : ReloadOutcome) : (r.record outcome).Shows outcome := by
  cases outcome with
  | ok material => exact ⟨rfl, rfl⟩
  | error e => rfl

theorem Shows.congr {outcome : ReloadOutcome} (h : r.Shows outcome)
    (hcurrent : r'.current = r.current) (hstatus : r'.status = r.status) : r'.Shows outcome := by
  cases outcome with
  | ok material =>
    obtain ⟨hmaterial, herror⟩ := h
    exact ⟨hcurrent.trans hmaterial, by rw [hstatus, herror]⟩
  | error e =>
    show r'.status.lastError = _
    rw [hstatus]
    exact h

/-- An attempt in a directory that stands refreshes it.  The reload goes on, or it is over and its
outcome is what the store gives now. -/
theorem attempt_cases {disk : Disk} {root : Location} {now : Instant} {reload : RunningReload}
    {done : Option Completion} (hstand : StandingDir disk root) (h : r.directory.Follows root)
    (hrunning : r.queue.running = some reload) (hattempt : r.attempt disk now = (r', done)) :
    r'.notifier = r.notifier ∧ r'.readers = r.readers ∧
      r.directory.refresh disk = (.ok (), r'.directory) ∧
      (done = none ∧ r'.queue.isIdle = false ∨ ∃ c, done = some c ∧ r'.Shows c.outcome ∧
        c.outcome = r'.directory.get r'.readers) := by
  have hrefresh := h.refresh_eq hstand
  rw [attempt, hrunning] at hattempt
  simp only [CertDirectory.assemble, hrefresh] at hattempt
  split at hattempt
  · rename_i e hget
    split at hattempt
    · cases hattempt
      refine ⟨rfl, rfl, hrefresh, .inl ⟨rfl, ?_⟩⟩
      simp [ReloadQueue.isIdle, ReloadQueue.pause, hrunning]
    · cases hattempt
      exact ⟨rfl, rfl, hrefresh, .inr ⟨_, rfl, shows_record _, rfl⟩⟩
  · cases hattempt
    exact ⟨rfl, rfl, hrefresh, .inr ⟨_, rfl, shows_record _, rfl⟩⟩

end Rotator

/-! ## The world of a rotator -/

/-- A disk, the time, a rotator, and the reports that its directory and its notifier have not taken
in.  The other fields are a record of the run, at which no step looks. -/
structure RotatorWorld (L : Type) where
  disk : Disk
  now : Instant
  rotator : Rotator L
  forDirectory : List Notification
  forNotifier : List Notification
  /-- The reloads that are over, the last one at the end. -/
  completed : List Completion
  /-- The directory as the last of them left it. -/
  assembled : CertDirectory
  /-- The reports that the directory has taken in since. -/
  late : List Notification
  /-- Whether the notifier has ever taken in a report before the directory did. -/
  overtaken : Bool

namespace RotatorWorld

variable {L : Type} {root : Location}

/-- The world in which a rotator begins to watch and to load for the first time. -/
def start (disk : Disk) (now : Instant) (r : Rotator L) : RotatorWorld L :=
  ⟨disk, now, r.enter now .caller, [], [], [], r.directory, [], false⟩

/-- The reports that a change of a file leads to reach both queues. -/
def changed (w : RotatorWorld L) (disk : Disk) (reports : List Notification) : RotatorWorld L :=
  { w with
    disk := disk
    forDirectory := w.forDirectory ++ reports
    forNotifier := w.forNotifier ++ reports }

/-- One step: a file of the directory is written or removed; the directory or the notifier takes in
the report that has waited longest; time goes on; the timers go off that are due, or one of them
does; a scheduled reload comes to the queue; somebody asks for a reload or subscribes; or the
running reload makes an attempt, after which it goes on or is over. -/
inductive Step [Limiter L] (root : Location) : RotatorWorld L → RotatorWorld L → Prop
  | write {w : RotatorWorld L} {name data : Bytes} {disk : Disk} {reports : List Notification}
      (hname : IsName name) (hplace : w.disk.IsFilePlace (root ++ [name]))
      (hdisk : w.disk.write (filePath root [name]) data = .ok disk) (hne : reports ≠ [])
      (hreports : ∀ report ∈ reports, report = ⟨.create, [filePath root [name]]⟩ ∨
        report = ⟨.content, [filePath root [name]]⟩) :
      Step root w (w.changed disk reports)
  | remove {w : RotatorWorld L} {name : Bytes} {disk : Disk} (hname : IsName name)
      (hplace : w.disk.IsFilePlace (root ++ [name]))
      (hdisk : w.disk.removeFile (filePath root [name]) = .ok disk) :
      Step root w (w.changed disk [⟨.remove, [filePath root [name]]⟩])
  | toDirectory {w : RotatorWorld L} {report : Notification} {rest : List Notification}
      (hqueue : w.forDirectory = report :: rest) :
      Step root w { w with
        forDirectory := rest
        rotator := w.rotator.notifyDirectory w.disk report
        late := w.late ++ [report] }
  | toNotifier {w : RotatorWorld L} {report : Notification} {rest : List Notification}
      (hqueue : w.forNotifier = report :: rest) :
      Step root w { w with
        forNotifier := rest
        rotator := w.rotator.notifyNotifier w.disk w.now report
        overtaken := w.overtaken || w.forNotifier.length ≤ w.forDirectory.length }
  | wait {w : RotatorWorld L} {now : Instant} (hnow : w.now ≤ now) :
      Step root w { w with now := now }
  | fire {w : RotatorWorld L} : Step root w { w with rotator := w.rotator.fireDue w.now }
  | timer {w : RotatorWorld L} {task : TimerTask} (htask : task ∈ w.rotator.notifier.changes.tasks)
      (hdue : task.due ≤ w.now) :
      Step root w { w with rotator := w.rotator.fired (w.rotator.notifier.fireChanges task) }
  | errorTimer {w : RotatorWorld L} {task : TimerTask}
      (htask : task ∈ w.rotator.notifier.errors.tasks) (hdue : task.due ≤ w.now) :
      Step root w { w with rotator := w.rotator.fired (w.rotator.notifier.fireErrors task) }
  | enter {w : RotatorWorld L} {count : Nat} (hscheduled : w.rotator.queue.scheduled = count + 1) :
      Step root w { w with rotator := { w.rotator with
        queue := { w.rotator.queue with scheduled := count }.enter w.now .change } }
  | call {w : RotatorWorld L} : Step root w { w with rotator := w.rotator.enter w.now .caller }
  | subscribe {w : RotatorWorld L} (callback : Callback ReloadOutcome) :
      Step root w { w with rotator := w.rotator.subscribe callback }
  | goOn {w : RotatorWorld L} {reload : RunningReload} {r : Rotator L}
      (hrunning : w.rotator.queue.running = some reload) (hdue : reload.due ≤ w.now)
      (hattempt : w.rotator.attempt w.disk w.now = (r, none)) : Step root w { w with rotator := r }
  | finish {w : RotatorWorld L} {reload : RunningReload} {r : Rotator L} {done : Completion}
      (hrunning : w.rotator.queue.running = some reload) (hdue : reload.due ≤ w.now)
      (hattempt : w.rotator.attempt w.disk w.now = (r, some done)) :
      Step root w { w with
        rotator := r
        completed := w.completed ++ [done]
        assembled := r.directory
        late := [] }

/-- Nothing is on the way: no report, no timer and no reload. -/
structure IsQuiet (w : RotatorWorld L) : Prop where
  forDirectory : w.forDirectory = []
  forNotifier : w.forNotifier = []
  changes : w.rotator.notifier.changes.tasks = []
  errors : w.rotator.notifier.errors.tasks = []
  queue : w.rotator.queue.isIdle

/-- Something is on the way that leads to a reload. -/
def IsStirring (w : RotatorWorld L) : Prop :=
  w.forNotifier ≠ [] ∨ w.rotator.notifier.Waits ∨ w.rotator.queue.isIdle = false

/-- The last reload saw the files as they are, its outcome is shown, and the store has since changed
only by reports about files that the directory took in late. -/
structure IsFresh (root : Location) (w : RotatorWorld L) : Prop where
  last : ∃ done, w.completed.getLast? = some done ∧ w.rotator.Shows done.outcome ∧
    done.outcome = w.assembled.get w.rotator.readers
  refreshed : ∃ before : CertDirectory, before.Follows root ∧
    before.refresh w.disk = (.ok (), w.assembled)
  late : ∀ report ∈ w.late, report.IsAboutFile w.disk root
  directory : w.rotator.directory =
    w.late.foldl (fun d report => d.notified w.disk report) w.assembled

/-- The reports that the directory took in late made no difference to what the store gives. -/
def LateIsHarmless (w : RotatorWorld L) : Prop :=
  (w.late.foldl (fun d report => d.notified w.disk report) w.assembled).get w.rotator.readers =
    w.assembled.get w.rotator.readers

/-- What is true of the world of a rotator at any time. -/
structure KeepsUp (root : Location) (w : RotatorWorld L) : Prop where
  standing : StandingDir w.disk root
  follows : w.rotator.directory.Follows root
  signalling : w.rotator.notifier.IsSignalling
  reports : ∀ report ∈ w.forDirectory ++ w.forNotifier, report.IsAboutFile w.disk root
  fresh : w.IsStirring ∨ w.IsFresh root
  behind : w.overtaken = false → w.forDirectory <:+ w.forNotifier ∧ (w.IsStirring ∨ w.late = [])

/-! ## Every step keeps up -/

variable {w : RotatorWorld L}

/-- What is fresh stays fresh as long as the files, the directory and what is shown stay. -/
theorem IsFresh.congr {r : Rotator L} (h : w.IsFresh root)
    (hdirectory : r.directory = w.rotator.directory) (hreaders : r.readers = w.rotator.readers)
    (hcurrent : r.current = w.rotator.current) (hstatus : r.status = w.rotator.status) :
    IsFresh root { w with rotator := r } where
  last := by
    obtain ⟨done, hdone, hshows, hget⟩ := h.last
    refine ⟨done, hdone, hshows.congr hcurrent hstatus, ?_⟩
    show done.outcome = w.assembled.get r.readers
    rw [hreaders, hget]
  refreshed := h.refreshed
  late := h.late
  directory := hdirectory.trans h.directory

/-- A change of a file stirs both queues. -/
theorem KeepsUp.changed (h : KeepsUp root w) {disk : Disk} {reports : List Notification}
    (hdisk : StandingDir disk root ∧ ∀ q, w.disk.IsFilePlace q → disk.IsFilePlace q)
    (hne : reports ≠ []) (hreports : ∀ report ∈ reports, report.IsAboutFile disk root) :
    KeepsUp root (w.changed disk reports) := by
  have hold : ∀ report ∈ w.forDirectory ++ w.forNotifier, report.IsAboutFile disk root := by
    intro report hreport
    obtain ⟨kind, name, hkind, hname, hplace, rfl⟩ := h.reports report hreport
    exact ⟨kind, name, hkind, hname, hdisk.2 _ hplace, rfl⟩
  have hstirring : (w.changed disk reports).IsStirring := .inl (by simp [RotatorWorld.changed, hne])
  refine ⟨hdisk.1, h.follows, h.signalling, ?_, .inl hstirring, fun hnot => ?_⟩
  · rw [List.forall_mem_append] at hold
    exact List.forall_mem_append.2 ⟨List.forall_mem_append.2 ⟨hold.1, hreports⟩,
      List.forall_mem_append.2 ⟨hold.2, hreports⟩⟩
  · obtain ⟨⟨front, hfront⟩, -⟩ := h.behind hnot
    refine ⟨⟨front, ?_⟩, .inl hstirring⟩
    rw [RotatorWorld.changed, ← hfront, List.append_assoc]

/-- A step of the rotator alone that leaves the directory and what is shown as they are. -/
theorem KeepsUp.move (h : KeepsUp root w) {r : Rotator L}
    (hdirectory : r.directory = w.rotator.directory) (hreaders : r.readers = w.rotator.readers)
    (hcurrent : r.current = w.rotator.current) (hstatus : r.status = w.rotator.status)
    (hsignalling : r.notifier.IsSignalling)
    (hstirring : w.IsStirring → IsStirring { w with rotator := r }) :
    KeepsUp root { w with rotator := r } where
  standing := h.standing
  follows := by rw [hdirectory]; exact h.follows
  signalling := hsignalling
  reports := h.reports
  fresh := h.fresh.imp hstirring fun hfresh => hfresh.congr hdirectory hreaders hcurrent hstatus
  behind hnot := (h.behind hnot).imp_right (Or.imp_left hstirring)

/-- The directory takes in a report. -/
theorem KeepsUp.toDirectory (h : KeepsUp root w) {report : Notification} {rest : List Notification}
    (hqueue : w.forDirectory = report :: rest) : KeepsUp root { w with
      forDirectory := rest
      rotator := w.rotator.notifyDirectory w.disk report
      late := w.late ++ [report] } := by
  have hreports := h.reports
  rw [hqueue, List.cons_append, List.forall_mem_cons] at hreports
  refine ⟨h.standing, h.follows.notified h.standing hreports.1, h.signalling, hreports.2, ?_,
    fun hnot => ?_⟩
  · refine h.fresh.imp id fun hfresh => ⟨hfresh.last, hfresh.refreshed, ?_, ?_⟩
    · exact List.forall_mem_append.2 ⟨hfresh.late, List.forall_mem_singleton.2 hreports.1⟩
    · show w.rotator.directory.notified w.disk report = _
      rw [hfresh.directory, List.foldl_append]
      rfl
  · obtain ⟨hsuffix, -⟩ := h.behind hnot
    rw [hqueue] at hsuffix
    refine ⟨(List.suffix_cons _ _).trans hsuffix, .inl (.inl ?_)⟩
    exact List.ne_nil_of_mem (hsuffix.subset List.mem_cons_self)

/-- What a report about a file means to the notifier waits or has been signalled. -/
theorem KeepsUp.notified [Limiter L] (h : KeepsUp root w) {report : Notification}
    (hreport : report ∈ w.forNotifier) :
    (w.rotator.notifier.notified w.disk w.now report).1.IsSignalling ∧
      ((w.rotator.notifier.notified w.disk w.now report).1.Waits ∨
        0 < Delivery.signals (w.rotator.notifier.notified w.disk w.now report).2) := by
  obtain ⟨kind, name, hkind, hname, hplace, rfl⟩ :=
    h.reports report (List.mem_append_right _ hreport)
  have hdir := h.standing.isDir_eq_false hname hplace
  obtain ⟨op, hop⟩ : ∃ op, Notification.op? w.disk kind (filePath root [name]) = some op := by
    rcases hkind with rfl | rfl | rfl
    · exact ⟨_, rfl⟩
    · exact ⟨_, rfl⟩
    · exact ⟨_, rfl⟩
  rw [h.signalling.notified_eq w.now hop hdir]
  exact h.signalling.pushChange w.now _

/-- The notifier takes in a report. -/
theorem KeepsUp.toNotifier [Limiter L] (h : KeepsUp root w) {report : Notification}
    {rest : List Notification} (hqueue : w.forNotifier = report :: rest) : KeepsUp root { w with
      forNotifier := rest
      rotator := w.rotator.notifyNotifier w.disk w.now report
      overtaken := w.overtaken || w.forNotifier.length ≤ w.forDirectory.length } := by
  obtain ⟨hsignalling, hwaits⟩ := h.notified (List.mem_of_mem_head? (by rw [hqueue]; rfl))
  have hstirring : IsStirring { w with
      forNotifier := rest
      rotator := w.rotator.notifyNotifier w.disk w.now report
      overtaken := w.overtaken || w.forNotifier.length ≤ w.forDirectory.length } :=
    .inr (hwaits.imp id fun hpos => ReloadQueue.isIdle_schedule (.inr hpos))
  refine ⟨h.standing, h.follows, hsignalling, ?_, .inl hstirring, fun hnot => ?_⟩
  · have hreports := h.reports
    rw [hqueue, List.forall_mem_append, List.forall_mem_cons] at hreports
    exact List.forall_mem_append.2 ⟨hreports.1, hreports.2.2⟩
  · obtain ⟨hbefore, hlonger⟩ := Bool.or_eq_false_iff.1 hnot
    obtain ⟨hsuffix, -⟩ := h.behind hbefore
    rw [hqueue] at hsuffix hlonger
    refine ⟨?_, .inl hstirring⟩
    rcases List.suffix_cons_iff.1 hsuffix with hall | hrest
    · rw [hall] at hlonger
      simp at hlonger
    · exact hrest

/-- Timers go off. -/
theorem KeepsUp.fired (h : KeepsUp root w) {answer : Notifier L × List Delivery}
    (hcarries : Notifier.Carries w.rotator.notifier answer.1 answer.2) :
    KeepsUp root { w with rotator := w.rotator.fired answer } := by
  refine h.move rfl rfl rfl rfl hcarries.signalling fun hstirring => ?_
  rcases hstirring with hreports | hwaits | hqueue
  · exact .inl hreports
  · rcases hcarries.waits hwaits with hwaits | hpos
    · exact .inr (.inl hwaits)
    · exact .inr (.inr (ReloadQueue.isIdle_schedule (.inr hpos)))
  · exact .inr (.inr (ReloadQueue.isIdle_schedule (.inl hqueue)))

/-- The running reload makes an attempt and goes on. -/
theorem KeepsUp.goOn (h : KeepsUp root w) {reload : RunningReload} {r : Rotator L}
    (hrunning : w.rotator.queue.running = some reload)
    (hattempt : w.rotator.attempt w.disk w.now = (r, none)) :
    KeepsUp root { w with rotator := r } := by
  obtain ⟨hnotifier, -, hrefresh, hcases⟩ :=
    Rotator.attempt_cases h.standing h.follows hrunning hattempt
  obtain ⟨-, hbusy⟩ := hcases.resolve_right fun ⟨c, hc, _⟩ => nomatch hc
  have hstirring : IsStirring { w with rotator := r } := .inr (.inr hbusy)
  refine ⟨h.standing, h.follows.of_refresh h.standing hrefresh, ?_, h.reports, .inl hstirring,
    fun hnot => ⟨(h.behind hnot).1, .inl hstirring⟩⟩
  rw [hnotifier]
  exact h.signalling

/-- The running reload makes its last attempt, which sees the files as they are. -/
theorem KeepsUp.finish (h : KeepsUp root w) {reload : RunningReload} {r : Rotator L}
    {done : Completion} (hrunning : w.rotator.queue.running = some reload)
    (hattempt : w.rotator.attempt w.disk w.now = (r, some done)) : KeepsUp root { w with
      rotator := r
      completed := w.completed ++ [done]
      assembled := r.directory
      late := [] } := by
  obtain ⟨hnotifier, -, hrefresh, hcases⟩ :=
    Rotator.attempt_cases h.standing h.follows hrunning hattempt
  obtain ⟨c, hc, hshows, hget⟩ := hcases.resolve_left fun hnone => nomatch hnone.1
  obtain rfl := Option.some.inj hc
  have hfresh : IsFresh root { w with
      rotator := r
      completed := w.completed ++ [done]
      assembled := r.directory
      late := [] } :=
    ⟨⟨done, List.getLast?_concat .., hshows, hget⟩, ⟨_, h.follows, hrefresh⟩, nofun, rfl⟩
  refine ⟨h.standing, h.follows.of_refresh h.standing hrefresh, ?_, h.reports, .inr hfresh,
    fun hnot => ⟨(h.behind hnot).1, .inr rfl⟩⟩
  rw [hnotifier]
  exact h.signalling

/-- **Every step keeps up.** -/
theorem KeepsUp.step [Limiter L] {w' : RotatorWorld L} (h : KeepsUp root w)
    (hstep : Step root w w') : KeepsUp root w' := by
  cases hstep with
  | write hname hplace hdisk hne hreports =>
    have hstand := h.standing.write hname hplace hdisk
    refine h.changed hstand hne fun report hreport => ?_
    rcases hreports report hreport with rfl | rfl
    · exact ⟨_, _, .inl rfl, hname, hstand.2 _ hplace, rfl⟩
    · exact ⟨_, _, .inr (.inl rfl), hname, hstand.2 _ hplace, rfl⟩
  | remove hname hplace hdisk =>
    have hstand := h.standing.removeFile hname hplace hdisk
    refine h.changed hstand (by simp) fun report hreport => ?_
    rw [List.mem_singleton.1 hreport]
    exact ⟨_, _, .inr (.inr rfl), hname, hstand.2 _ hplace, rfl⟩
  | toDirectory hqueue => exact h.toDirectory hqueue
  | toNotifier hqueue => exact h.toNotifier hqueue
  | wait hnow => exact ⟨h.standing, h.follows, h.signalling, h.reports, h.fresh.imp id fun hfresh =>
      ⟨hfresh.last, hfresh.refreshed, hfresh.late, hfresh.directory⟩, h.behind⟩
  | fire => exact h.fired (h.signalling.fireDue w.now)
  | timer htask hdue => exact h.fired (h.signalling.fireChanges _)
  | errorTimer htask hdue => exact h.fired (h.signalling.fireErrors _)
  | enter hscheduled =>
    exact h.move rfl rfl rfl rfl h.signalling fun _ => .inr (.inr (ReloadQueue.isIdle_enter _ _ _))
  | call =>
    exact h.move rfl rfl rfl rfl h.signalling fun _ => .inr (.inr (ReloadQueue.isIdle_enter _ _ _))
  | subscribe callback => exact h.move rfl rfl rfl rfl h.signalling id
  | goOn hrunning hdue hattempt => exact h.goOn hrunning hattempt
  | finish hrunning hdue hattempt => exact h.finish hrunning hattempt

/-- In a quiet world nothing stirs. -/
theorem KeepsUp.not_isStirring (h : KeepsUp root w) (hquiet : w.IsQuiet) : ¬ w.IsStirring := by
  rintro (hreports | hwaits | hqueue)
  · exact hreports hquiet.forNotifier
  · obtain ⟨task, htask, -⟩ := h.signalling.timed hwaits
    rw [hquiet.changes] at htask
    cases htask
  · rw [hquiet.queue] at hqueue
    cases hqueue

theorem keepsUp_start {disk : Disk} {now : Instant} {r : Rotator L} (h : StandingDir disk root)
    (hfollows : r.directory.Follows root) (hr : r.notifier.IsSignalling) :
    KeepsUp root (start disk now r) := by
  have hstirring : (start disk now r).IsStirring := .inr (.inr (ReloadQueue.isIdle_enter _ _ _))
  exact ⟨h, hfollows, hr, nofun, .inl hstirring, fun _ => ⟨List.suffix_refl _, .inl hstirring⟩⟩

/-- **What has been published when all is quiet.**  Some reload is over, the rotator shows its
outcome, and the outcome is what the store gives now if and only if the reports that the directory
took in after that reload made no difference to what the store gives.

Two things make sure of that: that the notifier has never taken in a report before the directory
did, for then there are no such reports; and that none of those reports is of a removal, where files
in subfolders do not interfere.  So a change that is missed is a removal. -/
theorem outcome_iff [Limiter L] {before disk : Disk} {s : RotationSettings} {readers : Readers}
    {policy : RetryPolicy} {limiter : L} {r r' : Rotator L} {now : Instant} {w : RotatorWorld L}
    (hroot : before.canonical s.certDir = .ok (Disk.pathOf root)) (tree : disk.IsTree)
    (hnames : ∀ n ∈ root, IsName n) (hdir : disk.entry? root = some .dir)
    (hnew : Rotator.new before s readers policy limiter = .ok r)
    (hwatch : r.watch disk true = (.ok (), r'))
    (hrun : Relation.ReflTransGen (Step root) (start disk now r') w) (hquiet : w.IsQuiet) :
    ∃ done, w.completed.getLast? = some done ∧ w.rotator.Shows done.outcome ∧
      (done.outcome = w.rotator.directory.get w.rotator.readers ↔ w.LateIsHarmless) ∧
      (w.overtaken = false → done.outcome = w.rotator.directory.get w.rotator.readers) ∧
      ((∀ name ∈ w.rotator.directory.fileNames, CertDirectory.OwnFileDecides w.disk root name) →
        (∀ report ∈ w.late, report.kind ≠ .remove) →
          done.outcome = w.rotator.directory.get w.rotator.readers) := by
  obtain ⟨hfollows, hsignalling⟩ := Rotator.of_watch hroot hnew hwatch
  have hstanding : StandingDir disk root :=
    ⟨tree, hnames, hdir, Disk.length_le_of_canonical hroot⟩
  have hkeeps : KeepsUp root w := by
    clear hquiet
    induction hrun with
    | refl => exact keepsUp_start hstanding hfollows hsignalling
    | tail _ hstep ih => exact ih.step hstep
  have hstill := hkeeps.not_isStirring hquiet
  have hfresh := hkeeps.fresh.resolve_left hstill
  obtain ⟨done, hlast, hshows, hget⟩ := hfresh.last
  refine ⟨done, hlast, hshows, ?_, fun hnot => ?_, fun hown hkinds => ?_⟩
  · rw [LateIsHarmless, hfresh.directory, hget]
    exact eq_comm
  · have hlate := (hkeeps.behind hnot).2.resolve_left hstill
    rw [hfresh.directory, hlate, hget]
    rfl
  · obtain ⟨before, hbefore, hrefresh⟩ := hfresh.refreshed
    rw [hfresh.directory, CertDirectory.fileNames_foldl_notified] at hown
    rw [hfresh.directory, hget]
    exact (hbefore.get_foldl_notified hkeeps.standing hrefresh hown fun report hreport =>
      ⟨hfresh.late report hreport, hkinds report hreport⟩).symm

/-! ## A removal that is published, and one that is not -/

/-- A directory with a certificate, a key and a bundle of trust anchors. -/
def threeFiles : Disk :=
  ⟨[([[114]], .dir), ([[114], Utf8.ofString "tls.crt"], .file [49]),
    ([[114], Utf8.ofString "tls.key"], .file [50]), ([[114], Utf8.ofString "ca.crt"], .file [51])],
    []⟩

/-- Readers to whom every text is a certificate, a key and a trust anchor. -/
def trustful : Readers where
  certificates text := .ok [text]
  privateKey text := .ok (some ⟨.key, text⟩)
  load s := .ok (.ed25519 s.content)
  pairing _ _ := .matched
  anchors certificates := (certificates, 0)

/-- Settings for the directory, with a limiter that grants everything. -/
def prompt : RotationSettings :=
  { RotationSettings.inDirectory (filePath [[114]] []) with throttle := ⟨0, 1⟩ }

/-- The world in which a rotator for the directory begins, and a world that it comes to. -/
def Leads (w : RotatorWorld (Bucket Float)) : Prop :=
  ∃ r r', Rotator.new threeFiles prompt trustful ⟨0, fun _ => 0⟩ (Bucket.new 0 1 0) = .ok r ∧
    r.watch threeFiles true = (.ok (), r') ∧
    Relation.ReflTransGen (Step [[114]]) (start threeFiles 0 r') w

/-- The trust anchors go, and the directory takes in the report first. -/
theorem exists_directoryFirst : ∃ w given, Leads w ∧ w.IsQuiet ∧ w.overtaken = false ∧
    w.rotator.directory.get w.rotator.readers = .ok given ∧ given.anchors = [] := by
  have hname : IsName (Utf8.ofString "ca.crt") := by decide
  have hplace : threeFiles.IsFilePlace [[114], Utf8.ofString "ca.crt"] :=
    ⟨by decide, by rintro target ⟨⟩⟩
  refine ⟨_, _, ⟨_, _, rfl, rfl, .head (.finish rfl (Nat.le_refl _) rfl) <|
    .head (.remove hname hplace rfl) <| .head (.toDirectory rfl) <| .head (.toNotifier rfl) <|
    .head (.enter rfl) <| .head (.finish rfl (Nat.le_refl _) rfl) <|
    .head (.timer List.mem_cons_self (Nat.le_refl _)) .refl⟩, ⟨rfl, rfl, rfl, rfl, rfl⟩, rfl, rfl, rfl⟩

/-- **A removal is published** where the directory takes in the report first. -/
theorem removal_published : ∃ w done published, Leads w ∧ w.IsQuiet ∧
    w.completed.getLast? = some done ∧ done.outcome = .ok published ∧ published.anchors = [] := by
  obtain ⟨w, given, hleads, hquiet, hnot, hget, hanchors⟩ := exists_directoryFirst
  obtain ⟨r, r', hnew, hwatch, hrun⟩ := hleads
  obtain ⟨done, hlast, -, -, houtcome, -⟩ :=
    outcome_iff rfl (by decide) (by decide) rfl hnew hwatch hrun hquiet
  exact ⟨w, done, given, ⟨r, r', hnew, hwatch, hrun⟩, hquiet, hlast, (houtcome hnot).trans hget,
    hanchors⟩

/-- **A removal is never published** where the notifier takes in the report first: when all is
quiet, the store has no trust anchors, and those that were removed are still published. -/
theorem removal_unpublished : ∃ w done published given, Leads w ∧ w.IsQuiet ∧
    w.completed.getLast? = some done ∧ done.outcome = .ok published ∧
    w.rotator.current = some published ∧ published.anchors = [[51]] ∧
    w.rotator.directory.get w.rotator.readers = .ok given ∧ given.anchors = [] := by
  have hname : IsName (Utf8.ofString "ca.crt") := by decide
  have hplace : threeFiles.IsFilePlace [[114], Utf8.ofString "ca.crt"] :=
    ⟨by decide, by rintro target ⟨⟩⟩
  refine ⟨_, _, _, _, ⟨_, _, rfl, rfl, .head (.finish rfl (Nat.le_refl _) rfl) <|
    .head (.remove hname hplace rfl) <| .head (.toNotifier rfl) <| .head (.enter rfl) <|
    .head (.finish rfl (Nat.le_refl _) rfl) <| .head (.timer List.mem_cons_self (Nat.le_refl _)) <|
    .head (.toDirectory rfl) .refl⟩, ⟨rfl, rfl, rfl, rfl, rfl⟩, rfl, rfl, rfl, rfl, rfl, rfl⟩

end RotatorWorld

end CertRotation
