import CertRotation.Proofs.Watch.WatchSet
import Mathlib.Logic.Relation

/-!
# Every directory comes to be watched

The system reports a new directory only if the directory that it appears in is watched.  So of a
tree that grows quickly most directories are never reported: what appears in a directory that is not
watched yet goes unseen.  It is still found when the directory above it that was reported is
absorbed, since absorbing takes in everything below.

* `WatcherWorld.Step` — a directory is made, or the watcher takes the next report;
* `WatcherWorld.Attends` — the invariant: what is not watched lies below something that has been
  reported and waits;
* `PathWatcher.countP_absorbAll` — what is absorbed is asked for once;
* `WatcherWorld.attends_start`, `WatcherWorld.Attends.step` — it holds at first and after each step;
* `WatcherWorld.watched_of_steps` — **with nothing waiting, every directory is watched**.
-/

set_option autoImplicit false

namespace CertRotation

open Disk (pathOf)

/-- Whether the system was asked to watch the path. -/
def WatchEffect.asks (p : Path) : WatchEffect → Bool
  | watch q _ => p.same q
  | _ => false

/-- The disk, a watcher, the reports that wait for it, and what it has done. -/
structure WatcherWorld where
  disk : Disk
  watcher : PathWatcher
  queue : List Notification
  effects : List WatchEffect

/-- What the system reports of a new directory: its path, if the directory above it is watched. -/
def PathWatcher.reportsOf (w : PathWatcher) (place : Location) : List Notification :=
  if w.watched.any (pathOf place.dropLast).same then [⟨.create, [pathOf place]⟩] else []

namespace WatcherWorld

/-- Somebody makes a directory somewhere, or the watcher takes the report that has waited
longest. -/
inductive Step : WatcherWorld → WatcherWorld → Prop
  | make {s : WatcherWorld} {p : Path} {place : Location} {disk : Disk}
      (hplace : s.disk.locate ⟨false, true⟩ (Disk.trimSeparators p) = .ok place)
      (hmake : s.disk.makeDir p = .ok disk) :
      Step s { s with disk := disk, queue := s.queue ++ s.watcher.reportsOf place }
  | dispatch {s : WatcherWorld} {report : Notification} {queue : List Notification}
      (hqueue : s.queue = report :: queue) :
      Step s { s with
        watcher := (s.watcher.notified s.disk report).1
        queue := queue
        effects := s.effects ++ (s.watcher.notified s.disk report).2 }

end WatcherWorld

/-! ## What is asked of the system -/

/-- Whatever a walk can go on at can be watched, and nothing else. -/
theorem watchFailure?_eq_none_iff {disk : Disk} {p : Path} :
    watchFailure? disk p = none ↔ disk.CanWalk p := by
  rw [watchFailure?, Disk.CanWalk, Disk.walkFault?]
  cases disk.stat p <;> simp

/-- In a file tree only the length of its path keeps an open directory from being watched. -/
theorem watchFailure?_pathOf {disk : Disk} {place : Location} (tree : disk.IsFileTree)
    (hdir : disk.entry? place = some .dir) :
    watchFailure? disk (pathOf place) = none ↔
      (pathOf place).bytes.length ≤ Disk.maxPath := by
  have hstat (entry : Entry) : disk.stat (pathOf place) = .ok entry ↔ _ :=
    Disk.stat_pathOf (tree.isName_of_dir hdir) (tree.isTree.linkFree hdir)
  rw [watchFailure?_eq_none_iff, Disk.canWalk_iff]
  constructor
  · rintro ⟨entry, h, -⟩
    exact ((hstat entry).1 h).1
  · intro hle
    exact ⟨.dir, (hstat .dir).2 ⟨hle, tree.isTree place (by rw [hdir]; rfl), hdir⟩, rfl⟩

namespace PathWatcher

variable {disk : Disk} {w : PathWatcher} {p : Path}

/-- A watcher that starts asks for every path in order. -/
theorem watchAll_of_ok {ps : List Path} (h : (watchAll disk ps).2 = none) :
    (watchAll disk ps).1 = (ps.map fun q => .watch q none) ∧
      ∀ q ∈ ps, watchFailure? disk q = none := by
  induction ps with
  | nil => exact ⟨rfl, nofun⟩
  | cons q ps ih =>
    rw [watchAll] at h ⊢
    cases hfailure : watchFailure? disk q with
    | some failure =>
      rw [hfailure] at h
      cases h
    | none =>
      rw [hfailure] at h
      obtain ⟨heffects, hall⟩ := ih h
      refine ⟨?_, List.forall_mem_cons.2 ⟨hfailure, hall⟩⟩
      simp only [List.map_cons, heffects]

/-- What a watcher watches when it starts, the system has agreed to. -/
theorem watchFailure?_of_start {runtime : Bool} {w' : PathWatcher} {effects : List WatchEffect}
    (h : w.start disk runtime = (.ok (), w', effects)) :
    ∀ q ∈ w'.watched, watchFailure? disk q = none := by
  rcases w.start_cases disk runtime with ⟨-, e, -, heq⟩ | ⟨-, -, ⟨failure, -, heq⟩ | ⟨hall, heq⟩⟩
  · rw [heq] at h
    cases h
  · rw [heq] at h
    cases h
  · rw [heq] at h
    cases h
    exact (watchAll_of_ok hall).2

/-- **What is absorbed is asked for once**: as long as the system does not refuse a path, the number
of times it is asked for is what was missing of it in the watched paths. -/
theorem countP_absorbAll {ps : List Path}
    (h : ∀ q ∈ ps, p.same q → watchFailure? disk q = none) :
    (absorbAll disk w ps).2.countP (WatchEffect.asks p) +
        (if w.watched.any p.same then 1 else 0) =
      if (absorbAll disk w ps).1.watched.any p.same then 1 else 0 := by
  induction ps generalizing w with
  | nil => simp [absorbAll]
  | cons q ps ih =>
    obtain ⟨hfirst, hrest⟩ := List.forall_mem_cons.1 h
    rw [absorbAll]
    split
    · exact ih hrest
    rename_i hnew
    cases hfailure : watchFailure? disk q with
    | none =>
      have hcount := ih hrest (w := { w with watched := q.insertSorted w.watched })
      rw [Path.any_same_insertSorted_eq] at hcount
      simp only [Option.isNone_none, if_true]
      rw [List.countP_cons, ← hcount, WatchEffect.asks]
      cases hsame : p.same q with
      | false => simp
      | true =>
        have hnone : w.watched.any p.same = false := by
          rw [Bool.eq_false_iff]
          intro hany
          obtain ⟨r, hr, hpr⟩ := List.any_eq_true.1 hany
          exact hnew (List.any_eq_true.2 ⟨r, hr, by rwa [← Path.same_congr hsame]⟩)
        simp [hnone]
    | some failure =>
      have hother : p.same q = false := by
        rw [Bool.eq_false_iff]
        intro hsame
        rw [hfirst hsame] at hfailure
        cases hfailure
      simp only [Option.isNone_some, Bool.false_eq_true, if_false, List.countP_cons,
        WatchEffect.asks, hother]
      exact ih hrest

/-- **A new directory is absorbed**, if its path still leads to a directory. -/
theorem notified_create (hrun : w.running = true) (hsub : w.subfolders = true)
    (hdir : disk.isDir p = true) :
    w.notified disk ⟨.create, [p]⟩ = absorbAll disk w (disk.directories p true) := by
  have hhandle : w.handle disk ⟨p, .create⟩ = absorbAll disk w (disk.directories p true) := by
    rw [handle, if_pos ⟨hsub, rfl, hdir⟩, absorb, if_pos hrun]
  rw [notified, if_pos hrun, dispatch]
  show w.handleAll disk [⟨p, .create⟩] = _
  rw [handleAll, hhandle]
  simp [handleAll]

/-- What cannot be looked at is handed on, and nothing is asked for. -/
theorem notified_create_of_not (hrun : w.running = true) (hdir : disk.isDir p = false) (q : Path) :
    (w.notified disk ⟨.create, [p]⟩).1 = w ∧
      (w.notified disk ⟨.create, [p]⟩).2.countP (WatchEffect.asks q) = 0 := by
  rw [notified, if_pos hrun, dispatch]
  show (w.handleAll disk [⟨p, .create⟩]).1 = w ∧
    (w.handleAll disk [⟨p, .create⟩]).2.countP (WatchEffect.asks q) = 0
  rw [handleAll, handle, if_neg (by simp [hdir])]
  refine ⟨rfl, ?_⟩
  cases w.onChange with
  | none => rfl
  | some callback => rfl

end PathWatcher

namespace WatcherWorld

variable {s s' : WatcherWorld} {root place : Location}

/-! ## The invariant -/

/-- **Whatever is not watched waits.**  Every directory below `root` that can be watched is watched,
or lies at or below one that has been reported; and a path is asked for only when it comes to be
watched, unless a closed directory stands there. -/
structure Attends (root : Location) (s : WatcherWorld) : Prop where
  tree : s.disk.IsFileTree
  running : s.watcher.running = true
  subfolders : s.watcher.subfolders = true
  root_stands : (s.disk.entry? root).isSome
  queued : ∀ report ∈ s.queue, ∃ up, report = ⟨.create, [pathOf up]⟩ ∧
    s.disk.entry? up = some .dir
  covered : ∀ place, root <+: place → s.disk.entry? place = some .dir →
    (pathOf place).bytes.length ≤ Disk.maxPath →
    s.watcher.watched.any (pathOf place).same ∨
      ∃ up, up <+: place ∧ (⟨.create, [pathOf up]⟩ : Notification) ∈ s.queue
  asked : ∀ place, (∀ n ∈ place, IsName n) → (pathOf place).bytes.length ≤ Disk.maxPath →
    (∀ fault, s.disk.entry? place ≠ some (.closed fault)) →
    s.effects.countP (WatchEffect.asks (pathOf place)) =
      if s.watcher.watched.any (pathOf place).same then 1 else 0

/-- A watcher that has just started has everything below its roots watched. -/
theorem attends_start {disk : Disk} {runtime : Bool} {before w : PathWatcher}
    {effects : List WatchEffect} (tree : disk.IsFileTree) (hsub : before.subfolders = true)
    (hstart : before.start disk runtime = (.ok (), w, effects)) (hroot : pathOf root ∈ w.roots)
    (hstands : (disk.entry? root).isSome) : Attends root ⟨disk, w, [], effects⟩ := by
  rcases before.start_cases disk runtime with
    ⟨-, e, -, heq⟩ | ⟨-, -, ⟨failure, -, heq⟩ | ⟨hall, heq⟩⟩
  · rw [heq] at hstart
    cases hstart
  · rw [heq] at hstart
    cases hstart
  rw [heq] at hstart
  cases hstart
  refine ⟨tree, rfl, hsub, hstands, nofun, fun place hbelow hdir hle => .inl ?_,
    fun place _ _ _ => ?_⟩
  · refine Path.any_same_sorted ?_
    obtain ⟨names, rfl⟩ := hbelow
    rcases eq_or_ne names [] with rfl | hne
    · rw [List.append_nil]
      exact List.mem_append_left _ hroot
    have htop : disk.entry? root = some .dir :=
      tree.isTree _ (by rw [hdir]; rfl) root (List.prefix_append _ _) (by simpa using hne)
    have hshort : ∀ up, up <+: root ++ names → (pathOf up).bytes.length ≤ Disk.maxPath := by
      rintro up ⟨rest, hrest⟩
      rw [← hrest] at hle
      exact (Disk.length_pathOf_le up rest).trans hle
    refine List.mem_append_right _ ?_
    rw [if_pos hsub, List.mem_flatMap]
    refine ⟨pathOf root, hroot, ?_⟩
    refine (Disk.mem_directories tree htop (hshort root (List.prefix_append _ _))).2
      ⟨names, fun _ => hne, Disk.isDirAt_of_dir hdir, hshort _ ?_, rfl⟩
    exact (List.prefix_append_right_inj root).2 (List.dropLast_prefix names)
  · obtain ⟨heffects, -⟩ := PathWatcher.watchAll_of_ok hall
    rw [heffects, List.countP_map]
    exact (Path.isAscending_sorted _).isDistinct.countP_same _

/-- What is made under a watched directory is reported, and under one that waits there is no need
to. -/
theorem Attends.make (h : Attends root s) {p : Path} {disk : Disk}
    (hplace : s.disk.locate ⟨false, true⟩ (Disk.trimSeparators p) = .ok place)
    (hmake : s.disk.makeDir p = .ok disk) :
    Attends root { s with disk := disk, queue := s.queue ++ s.watcher.reportsOf place } := by
  obtain ⟨up, name, rfl, hfree, rfl⟩ := Disk.exists_of_makeDir h.tree.isTree hplace hmake
  have hnew : Disk.entry? (s.disk.put (up ++ [name]) .dir) (up ++ [name]) = some .dir := by
    rw [Disk.entry?_put (by simp), if_pos rfl]
  refine ⟨h.tree.put hfree .dir, h.running, h.subfolders, ?_, fun report hreport => ?_,
    fun place hbelow hdir hle => ?_, fun place hn hle hopen => h.asked place hn hle ?_⟩
  · obtain ⟨entry, hentry⟩ := Option.isSome_iff_exists.1 h.root_stands
    dsimp only
    rw [hfree.entry?_put hentry]
    rfl
  · rcases List.mem_append.1 hreport with hreport | hreport
    · obtain ⟨above, rfl, habove⟩ := h.queued report hreport
      exact ⟨above, rfl, hfree.entry?_put habove⟩
    · rw [PathWatcher.reportsOf] at hreport
      split at hreport
      · exact ⟨up ++ [name], List.mem_singleton.1 hreport, hnew⟩
      · cases hreport
  · dsimp only at hdir ⊢
    rw [Disk.entry?_put (by simp)] at hdir
    split at hdir
    · rename_i hplace
      subst hplace
      -- The root stood before, so what is new stands below it, in a directory that was covered.
      have hup : root <+: up := by
        refine (List.prefix_concat_iff.1 hbelow).resolve_left ?_
        rintro rfl
        have hstands := h.root_stands
        rw [hfree.free] at hstands
        cases hstands
      rcases h.covered up hup hfree.isDir ((Disk.length_pathOf_le up [name]).trans hle) with
        hwatched | ⟨above, habove, hqueued⟩
      · refine .inr ⟨up ++ [name], List.prefix_refl _, List.mem_append_right _ ?_⟩
        rw [PathWatcher.reportsOf, List.dropLast_concat, if_pos hwatched]
        exact List.mem_singleton.2 rfl
      · exact .inr ⟨above, habove.trans (List.prefix_append _ _), List.mem_append_left _ hqueued⟩
    · rcases h.covered place hbelow hdir hle with hwatched | ⟨above, habove, hqueued⟩
      · exact .inl hwatched
      · exact .inr ⟨above, habove, List.mem_append_left _ hqueued⟩
  · exact fun fault hclosed => hopen fault (hfree.entry?_put hclosed)

/-- What taking a report has to come to: everything below the reported directory is watched after
it, and what has been asked for is what has been added. -/
theorem Attends.taken (h : Attends root s) {up : Location} {queue : List Notification}
    (hqueue : s.queue = ⟨.create, [pathOf up]⟩ :: queue) (hup : s.disk.entry? up = some .dir)
    {watched : List Path} {effects : List WatchEffect}
    (hkept : ∀ q ∈ s.watcher.watched, q ∈ watched)
    (hbelow : ∀ place, up <+: place → s.disk.entry? place = some .dir →
      (pathOf place).bytes.length ≤ Disk.maxPath → watched.any (pathOf place).same)
    (hasked : ∀ place, (∀ n ∈ place, IsName n) → (pathOf place).bytes.length ≤ Disk.maxPath →
      (∀ fault, s.disk.entry? place ≠ some (.closed fault)) →
      effects.countP (WatchEffect.asks (pathOf place)) +
          (if s.watcher.watched.any (pathOf place).same then 1 else 0) =
        if watched.any (pathOf place).same then 1 else 0) :
    Attends root { s with
      watcher := { s.watcher with watched := watched }
      queue := queue
      effects := s.effects ++ effects } := by
  refine ⟨h.tree, h.running, h.subfolders, h.root_stands, fun report hreport => ?_,
    fun place hroot hplace hle => ?_, fun place hn hle hopen => ?_⟩
  · exact h.queued report (by rw [hqueue]; exact List.mem_cons_of_mem _ hreport)
  · rcases h.covered place hroot hplace hle with hwatched | ⟨above, habove, hwaits⟩
    · obtain ⟨q, hq, hsame⟩ := List.any_eq_true.1 hwatched
      exact .inl (List.any_eq_true.2 ⟨q, hkept q hq, hsame⟩)
    rw [hqueue] at hwaits
    rcases List.mem_cons.1 hwaits with hhead | hwaits
    · have hn : ∀ n ∈ above, IsName n := fun n hn =>
        h.tree.isName_of_dir hplace n (habove.subset hn)
      have heq : pathOf above = pathOf up := by simpa using hhead
      have hsame : above = up :=
        (Disk.same_pathOf hn (h.tree.isName_of_dir hup)).1 (by rw [heq]; exact Path.same_refl _)
      exact .inl (hbelow place (hsame ▸ habove) hplace hle)
    · exact .inr ⟨above, habove, hwaits⟩
  · dsimp only
    rw [List.countP_append, h.asked place hn hle hopen, ← hasked place hn hle hopen, Nat.add_comm]

/-- A report that is taken is absorbed with all that has appeared below it meanwhile. -/
theorem Attends.dispatch (h : Attends root s) {report : Notification} {queue : List Notification}
    (hqueue : s.queue = report :: queue) :
    Attends root { s with
      watcher := (s.watcher.notified s.disk report).1
      queue := queue
      effects := s.effects ++ (s.watcher.notified s.disk report).2 } := by
  obtain ⟨up, rfl, hup⟩ := h.queued report (by rw [hqueue]; exact List.mem_cons_self)
  have hisDir := Disk.isDir_pathOf (h.tree.isName_of_dir hup) (h.tree.isTree.linkFree hup)
  by_cases hle : (pathOf up).bytes.length ≤ Disk.maxPath
  · have hdir : s.disk.isDir (pathOf up) = true :=
      hisDir.2 ⟨hle, h.tree.isTree up (by rw [hup]; rfl), Disk.isDirAt_of_dir hup⟩
    have hlist (q : Path) : q ∈ s.disk.directories (pathOf up) true ↔ _ :=
      Disk.mem_directories h.tree hup hle
    obtain ⟨watched, effects, heq, -, hkept, hall⟩ := PathWatcher.exists_absorbAll_eq s.disk
      s.watcher (s.disk.directories (pathOf up) true)
    rw [PathWatcher.notified_create h.running h.subfolders hdir, heq]
    refine h.taken hqueue hup hkept (fun place hbelow hplace hshort => ?_)
      fun place hn hshort hopen => ?_
    · refine hall _ ((hlist _).2 ?_) ((watchFailure?_pathOf h.tree hplace).2 hshort)
      obtain ⟨names, rfl⟩ := hbelow
      refine ⟨names, nofun, Disk.isDirAt_of_dir hplace, ?_, rfl⟩
      obtain ⟨rest, hrest⟩ := (List.prefix_append_right_inj up).2 (List.dropLast_prefix names)
      rw [← hrest] at hshort
      exact (Disk.length_pathOf_le _ rest).trans hshort
    · have hlisted : ∀ q ∈ s.disk.directories (pathOf up) true, (pathOf place).same q →
          watchFailure? s.disk q = none := by
        intro q hq hsame
        obtain ⟨names, -, hstands, -, rfl⟩ := (hlist q).1 hq
        have hplace := (Disk.same_pathOf hn (h.tree.isName_of_isDirAt hstands)).1 hsame
        rw [← hplace] at hstands ⊢
        obtain ⟨entry, hentry, hisDir⟩ := Disk.isDirAt_iff.1 hstands
        rcases Entry.eq_of_isDir hisDir with rfl | ⟨fault, rfl⟩
        · exact (watchFailure?_pathOf h.tree hentry).2 hshort
        · exact absurd hentry (hopen fault)
      have hcount := s.watcher.countP_absorbAll hlisted
      rwa [heq] at hcount
  · -- Nothing below a directory with too long a path can be watched, so nothing waits for it.
    have hdir : s.disk.isDir (pathOf up) = false :=
      Bool.eq_false_iff.2 fun hdir => hle (hisDir.1 hdir).1
    obtain ⟨hsame, -⟩ := PathWatcher.notified_create_of_not h.running hdir (pathOf up)
    rw [hsame]
    refine h.taken hqueue hup (fun _ hq => hq) (fun place hbelow _ hshort => ?_)
      fun place _ _ _ => ?_
    · obtain ⟨rest, rfl⟩ := hbelow
      exact absurd ((Disk.length_pathOf_le up rest).trans hshort) hle
    · rw [(PathWatcher.notified_create_of_not h.running hdir (pathOf place)).2, Nat.zero_add]

theorem Attends.step (h : Attends root s) (hstep : Step s s') : Attends root s' := by
  cases hstep with
  | make hplace hmake => exact h.make hplace hmake
  | dispatch hqueue => exact h.dispatch hqueue

theorem Attends.steps (h : Attends root s) (hsteps : Relation.ReflTransGen Step s s') :
    Attends root s' := by
  induction hsteps with
  | refl => exact h
  | tail _ hstep ih => exact ih.step hstep

/-! ## With nothing waiting -/

/-- What stands keeps standing while directories are made. -/
theorem entry?_of_steps (tree : s.disk.IsFileTree) (hsteps : Relation.ReflTransGen Step s s') :
    s'.disk.IsFileTree ∧
      ∀ q entry, s.disk.entry? q = some entry → s'.disk.entry? q = some entry := by
  induction hsteps with
  | refl => exact ⟨tree, fun _ _ h => h⟩
  | tail _ hstep ih =>
    obtain ⟨tree, hkept⟩ := ih
    cases hstep with
    | make hplace hmake =>
      obtain ⟨up, name, rfl, hfree, rfl⟩ := Disk.exists_of_makeDir tree.isTree hplace hmake
      exact ⟨tree.put hfree .dir, fun q entry hq => hfree.entry?_put (hkept q entry hq)⟩
    | dispatch hqueue => exact ⟨tree, hkept⟩

/-- A root that a watcher has started to watch stands, if it stands in a tree that has grown from
the one then. -/
theorem isSome_root {disk disk' : Disk} (tree : disk'.IsFileTree)
    (hkept : ∀ q entry, disk.entry? q = some entry → disk'.entry? q = some entry)
    (hdir : disk'.entry? root = some .dir) (hwatched : watchFailure? disk (pathOf root) = none) :
    (disk.entry? root).isSome := by
  have hfree : disk.LinkFree root := fun base hbase target hlink =>
    tree.isTree.linkFree hdir base hbase target (hkept base _ hlink)
  obtain ⟨entry, hstat, -⟩ := Disk.canWalk_iff.1 (watchFailure?_eq_none_iff.1 hwatched)
  obtain ⟨-, -, hentry⟩ := (Disk.stat_pathOf (tree.isName_of_dir hdir) hfree).1 hstat
  rw [hentry]
  rfl

/-- **With nothing waiting, every directory is watched.**  A watcher of subfolders is started, at
any moment of its life; directories are made, and reports are taken, in any order.  Whenever no
report waits, each directory at or below a root is watched if the system lets it be watched, and
has been asked for exactly once. -/
theorem watched_of_steps {onChange : Option (Callback Change)}
    {onError : Option (Callback WatchError)} {acts : List WatcherAct}
    (hacts : ∀ a ∈ acts, a.IsOnFileTree) {disk : Disk} (tree : disk.IsFileTree) {runtime : Bool}
    {w : PathWatcher} {effects : List WatchEffect}
    (hstart : ((PathWatcher.new true onChange onError).run acts).start disk runtime =
      (.ok (), w, effects))
    (hsteps : Relation.ReflTransGen Step ⟨disk, w, [], effects⟩ s) (hquiet : s.queue = [])
    {root names : Location} (hroot : pathOf root ∈ w.roots)
    (hdir : s.disk.entry? (root ++ names) = some .dir)
    (hwatch : watchFailure? s.disk (pathOf (root ++ names)) = none) :
    s.watcher.watched.any (pathOf (root ++ names)).same ∧
      s.effects.countP (WatchEffect.asks (pathOf (root ++ names))) = 1 := by
  have hsub : ((PathWatcher.new true onChange onError).run acts).subfolders = true :=
    PathWatcher.subfolders_run _ acts
  have hsound := PathWatcher.isSound_run (PathWatcher.isSound_new true onChange onError) hacts
  have hwatched := (hsound.start disk runtime).roots_watched
  rw [hstart] at hwatched
  have hstood : watchFailure? disk (pathOf root) = none :=
    PathWatcher.watchFailure?_of_start hstart _ (hwatched _ hroot)
  obtain ⟨tree', hkept⟩ := entry?_of_steps tree hsteps
  have hroot' : s.disk.entry? root = some .dir := by
    rcases eq_or_ne names [] with rfl | hne
    · rwa [List.append_nil] at hdir
    · exact tree'.isTree _ (by rw [hdir]; rfl) root (List.prefix_append _ _) (by simpa using hne)
  have hattends := (attends_start tree hsub hstart hroot
    (isSome_root tree' hkept hroot' hstood)).steps hsteps
  have hle := (watchFailure?_pathOf tree' hdir).1 hwatch
  have hcovered : s.watcher.watched.any (pathOf (root ++ names)).same := by
    refine (hattends.covered _ (List.prefix_append _ _) hdir hle).resolve_right ?_
    rintro ⟨up, -, hwaits⟩
    rw [hquiet] at hwaits
    cases hwaits
  refine ⟨hcovered, ?_⟩
  rw [hattends.asked _ (tree'.isName_of_dir hdir) hle (by simp [hdir]), if_pos hcovered]

/-- A directory and one in it are made before the first report is taken, so only the first of them
is reported. -/
theorem watched_of_nested : ∃ w effects s,
    (PathWatcher.run (.new true none none) [.add PathWatcher.oneDirectory ⟨[47, 114]⟩]).start
        PathWatcher.oneDirectory true = (.ok (), w, effects) ∧
      Relation.ReflTransGen Step ⟨PathWatcher.oneDirectory, w, [], effects⟩ s ∧ s.queue = [] ∧
      pathOf [[114]] ∈ w.roots ∧ s.disk.entry? [[114], [97], [98]] = some .dir ∧
      s.watcher.watched.any (pathOf [[114], [97], [98]]).same ∧
      s.effects.countP (WatchEffect.asks (pathOf [[114], [97], [98]])) = 1 := by
  obtain ⟨w, effects, hstart⟩ : ∃ w effects,
      (PathWatcher.run (.new true none none) [.add PathWatcher.oneDirectory ⟨[47, 114]⟩]).start
        PathWatcher.oneDirectory true = (.ok (), w, effects) := ⟨_, _, rfl⟩
  have tree : PathWatcher.oneDirectory.IsFileTree := by decide
  have hroot : pathOf [[114]] ∈ w.roots := by
    cases hstart
    decide
  obtain ⟨s, hsteps, hquiet, hdir, hwatch⟩ : ∃ s,
      Relation.ReflTransGen Step ⟨PathWatcher.oneDirectory, w, [], effects⟩ s ∧ s.queue = [] ∧
        s.disk.entry? [[114], [97], [98]] = some .dir ∧
        watchFailure? s.disk (pathOf [[114], [97], [98]]) = none := by
    cases hstart
    exact ⟨_, .head (Step.make (p := ⟨[47, 114, 47, 97]⟩) rfl rfl)
      (.head (Step.make (p := ⟨[47, 114, 47, 97, 47, 98]⟩) rfl rfl)
        (.head (Step.dispatch rfl) .refl)), rfl, rfl, rfl⟩
  have hacts : ∀ a ∈ [WatcherAct.add PathWatcher.oneDirectory ⟨[47, 114]⟩], a.IsOnFileTree :=
    List.forall_mem_singleton.2 tree
  have hbelow : s.disk.entry? ([[114]] ++ [[97], [98]]) = some .dir := hdir
  obtain ⟨hwatched, hasked⟩ := watched_of_steps hacts tree hstart hsteps hquiet hroot hbelow hwatch
  exact ⟨w, effects, s, hstart, hsteps, hquiet, hroot, hdir, hwatched, hasked⟩

end WatcherWorld
end CertRotation
