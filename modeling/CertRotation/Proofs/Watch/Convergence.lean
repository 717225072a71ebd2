import CertRotation.Proofs.Disk.Directory
import CertRotation.Proofs.Watch.Touch
import Mathlib.Logic.Relation

/-!
# A loader catches up with its files

Files below the root of a loader change, and the reports about the changes wait in a queue until the
loader takes them in.  Every change of a file queues a touch that settles it whatever came before,
and taking in a report only uses up the first touch; so the files always settle by what is queued.

* `LoaderWorld.Step` — changes of files and reports that are taken in, in any order;
* `CatchesUp` — the invariant, and `CatchesUp.step` — every step keeps it;
* `mirrors_of_reachable` — once the queue is empty, the store mirrors the files.
-/

set_option autoImplicit false

namespace CertRotation

/-! ## The world of a loader -/

/-- A disk, the reports that have not been taken in, and a loader. -/
structure LoaderWorld where
  disk : Disk
  queue : List Notification
  loader : Loader

namespace LoaderWorld

/-- One step: a file below the root is written, removed or renamed, and the change is reported; or
the loader takes in the report that has waited longest. -/
inductive Step (root : Location) : LoaderWorld → LoaderWorld → Prop
  | write {w : LoaderWorld} {names : Location} {data : Bytes} {disk : Disk}
      {reports : List Notification} (hnames : FileNames names) (hdata : data ≠ [])
      (hdisk : w.disk.write (filePath root names) data = .ok disk) (hne : reports ≠ [])
      (hreports : ∀ report ∈ reports, report = ⟨.create, [filePath root names]⟩ ∨
        report = ⟨.content, [filePath root names]⟩) :
      Step root w { w with disk := disk, queue := w.queue ++ reports }
  | remove {w : LoaderWorld} {names : Location} {disk : Disk} (hnames : FileNames names)
      (hdisk : w.disk.removeFile (filePath root names) = .ok disk) :
      Step root w { w with
        disk := disk, queue := w.queue ++ [⟨.remove, [filePath root names]⟩] }
  | rename {w : LoaderWorld} {source target : Location} {disk : Disk} {leaves arrives : MoveEnd}
      (hsource : FileNames source) (htarget : FileNames target) (hne : source ≠ target)
      (hfile : w.disk.isDirAt (root ++ source) = false)
      (hdisk : w.disk.rename (filePath root source) (filePath root target) = .ok disk)
      (hends : leaves = .origin ∧ arrives = .destination ∨ leaves = .unsaid ∧ arrives = .unsaid) :
      Step root w { w with
        disk := disk
        queue := w.queue ++
          [⟨.move leaves, [filePath root source]⟩, ⟨.move arrives, [filePath root target]⟩] }
  | takeIn {w : LoaderWorld} {report : Notification} {rest : List Notification}
      (hqueue : w.queue = report :: rest) :
      Step root w { w with queue := rest, loader := w.loader.notified w.disk report }

end LoaderWorld

/-! ## The invariant -/

/-- Whatever is queued settles every file below the root, and the store knows no other keys. -/
structure CatchesUp (root : Location) (w : LoaderWorld) : Prop where
  tree : PlainTree w.disk root
  usual : w.loader.IsUsual
  following : w.loader.IsFollowing
  reports : ∀ report ∈ w.queue, IsFileReport w.disk root report
  keys : ∀ key, (w.loader.store.get? key).isSome →
    ∃ home, FileNames home ∧ ¬ (filePath root home).IsMarked ∧ key = (filePath root home).text
  settles : ∀ home, FileNames home → ¬ (filePath root home).IsMarked →
    Settles (w.disk.content? (filePath root home))
      (w.queue.map (Notification.touch (filePath root home)))
      (w.loader.store.get? (filePath root home).text)

namespace CatchesUp

variable {root : Location} {w w' : LoaderWorld}

/-- Files change: those that are reported settle by their reports, the others stay as they are. -/
theorem enqueue (h : CatchesUp root w) {disk : Disk} {reports : List Notification}
    (tree : PlainTree disk root)
    (hdir : w.disk.SameDirs disk)
    (hreports : ∀ report ∈ reports, IsFileReport disk root report)
    (hsettles : ∀ home, FileNames home →
      (∀ old, Settles (disk.content? (filePath root home))
        (reports.map (Notification.touch (filePath root home))) old) ∨
      disk.content? (filePath root home) = w.disk.content? (filePath root home) ∧
        ∀ report ∈ reports, report.touch (filePath root home) = .chance) :
    CatchesUp root { w with disk := disk, queue := w.queue ++ reports } := by
  refine ⟨tree, h.usual, h.following, fun report hmem => ?_, h.keys, fun home hh hmark => ?_⟩
  · rcases List.mem_append.1 hmem with hmem | hmem
    · obtain ⟨names, kind, hn, hfile, hkind, heq⟩ := h.reports report hmem
      exact ⟨names, kind, hn, (hdir.isDirAt_eq _).trans hfile, hkind, heq⟩
    · exact hreports report hmem
  · rw [List.map_append]
    rcases hsettles home hh with hlast | ⟨hsame, hchance⟩
    · exact Settles.append_of_forall hlast
    · rw [hsame]
      refine (h.settles home hh hmark).append_chances fun t ht => ?_
      obtain ⟨report, hmem, rfl⟩ := List.mem_map.1 ht
      exact hchance report hmem

theorem touch_self (names : Location) (kind : NotificationKind) :
    Notification.touch (filePath root names) ⟨kind, [filePath root names]⟩ = kind.touch :=
  if_pos rfl

theorem touch_other {names home : Location} (hn : FileNames names) (hh : FileNames home)
    (hne : names ≠ home) (kind : NotificationKind) :
    Notification.touch (filePath root home) ⟨kind, [filePath root names]⟩ = .chance :=
  if_neg fun e => hne (filePath_inj hn hh (List.singleton_inj.1 e))

theorem write (h : CatchesUp root w) {names : Location} {data : Bytes} {disk : Disk}
    {reports : List Notification} (hn : FileNames names) (hdata : data ≠ [])
    (hdisk : w.disk.write (filePath root names) data = .ok disk) (hne : reports ≠ [])
    (hreports : ∀ report ∈ reports, report = ⟨.create, [filePath root names]⟩ ∨
      report = ⟨.content, [filePath root names]⟩) :
    CatchesUp root { w with disk := disk, queue := w.queue ++ reports } := by
  obtain ⟨tree, hdir, hfile, hwritten, hothers⟩ := h.tree.write hn hdata hdisk
  refine h.enqueue tree hdir (fun report hmem => ?_) fun home hh => ?_
  · rcases hreports report hmem with rfl | rfl
    · exact ⟨names, .create, hn, (hdir.isDirAt_eq _).trans hfile, by simp [fileKinds], rfl⟩
    · exact ⟨names, .content, hn, (hdir.isDirAt_eq _).trans hfile, by simp [fileKinds], rfl⟩
  rcases eq_or_ne names home with rfl | hother
  · rw [hwritten]
    refine .inl (Settles.loads (by simpa using hne) fun t ht => ?_)
    obtain ⟨report, hmem, rfl⟩ := List.mem_map.1 ht
    rcases hreports report hmem with rfl | rfl <;> exact touch_self names _
  · refine .inr ⟨hothers home hh.isName hother.symm, fun report hmem => ?_⟩
    rcases hreports report hmem with rfl | rfl <;> exact touch_other hn hh hother _

theorem remove (h : CatchesUp root w) {names : Location} {disk : Disk} (hn : FileNames names)
    (hdisk : w.disk.removeFile (filePath root names) = .ok disk) :
    CatchesUp root { w with
      disk := disk, queue := w.queue ++ [⟨.remove, [filePath root names]⟩] } := by
  obtain ⟨tree, hdir, hfile, hgone, hothers⟩ := h.tree.removeFile hn hdisk
  refine h.enqueue tree hdir (fun report hmem => ?_) fun home hh => ?_
  · obtain rfl := List.mem_singleton.1 hmem
    exact ⟨names, .remove, hn, (hdir.isDirAt_eq _).trans hfile, by simp [fileKinds], rfl⟩
  rcases eq_or_ne names home with rfl | hother
  · rw [hgone, List.map_singleton, touch_self]
    exact .inl fun old new hnew => hnew
  · refine .inr ⟨hothers home hh.isName hother.symm, fun report hmem => ?_⟩
    obtain rfl := List.mem_singleton.1 hmem
    exact touch_other hn hh hother _

theorem rename (h : CatchesUp root w) {source target : Location} {disk : Disk}
    {leaves arrives : MoveEnd} (hs : FileNames source) (ht : FileNames target)
    (hne : source ≠ target) (hfile : w.disk.isDirAt (root ++ source) = false)
    (hdisk : w.disk.rename (filePath root source) (filePath root target) = .ok disk)
    (hends : leaves = .origin ∧ arrives = .destination ∨ leaves = .unsaid ∧ arrives = .unsaid) :
    CatchesUp root { w with
      disk := disk
      queue := w.queue ++
        [⟨.move leaves, [filePath root source]⟩, ⟨.move arrives, [filePath root target]⟩] } := by
  obtain ⟨tree, hdir, hfile', hgone, hhere, hothers⟩ := h.tree.rename hs ht hne hfile hdisk
  obtain ⟨content, hcontent⟩ := Option.isSome_iff_exists.1 hhere
  refine h.enqueue tree hdir (fun report hmem => ?_) fun home hh => ?_
  · rw [List.mem_cons, List.mem_singleton] at hmem
    rcases hmem with rfl | rfl
    · refine ⟨source, .move leaves, hs, (hdir.isDirAt_eq _).trans hfile, ?_, rfl⟩
      rcases hends with ⟨rfl, -⟩ | ⟨rfl, -⟩ <;> simp [fileKinds]
    · refine ⟨target, .move arrives, ht, (hdir.isDirAt_eq _).trans hfile', ?_, rfl⟩
      rcases hends with ⟨-, rfl⟩ | ⟨-, rfl⟩ <;> simp [fileKinds]
  simp only [List.map_cons, List.map_nil]
  by_cases hsource : source = home
  · subst hsource
    -- The file has left: nothing is loaded after it has been dropped.
    left
    rw [hgone, touch_self, touch_other ht hh hne.symm]
    have hdrop : ∀ old new,
        (NotificationKind.move leaves).touch.Leads none old new → new = none := by
      rcases hends with ⟨rfl, -⟩ | ⟨rfl, -⟩ <;> exact fun old new hnew => hnew
    intro old new hnew last hlast
    rw [hdrop old new hnew] at hlast
    exact hlast.elim id id
  by_cases htarget : target = home
  · subst htarget
    left
    rw [hcontent, touch_self, touch_other hs hh hsource]
    intro old new _ last hlast
    rcases hends with ⟨-, rfl⟩ | ⟨-, rfl⟩ <;> exact hlast
  · refine .inr ⟨hothers home hh.isName (Ne.symm hsource) (Ne.symm htarget), fun report hmem => ?_⟩
    rw [List.mem_cons, List.mem_singleton] at hmem
    rcases hmem with rfl | rfl
    · exact touch_other hs hh hsource _
    · exact touch_other ht hh htarget _

theorem takeIn (h : CatchesUp root w) {report : Notification} {rest : List Notification}
    (hqueue : w.queue = report :: rest) :
    CatchesUp root { w with queue := rest, loader := w.loader.notified w.disk report } := by
  have hreport := h.reports report (by simp [hqueue])
  obtain ⟨store, hstore, hleads, hkeys⟩ := exists_notified h.usual h.following h.tree hreport
  rw [hstore]
  refine ⟨h.tree, ⟨h.usual.strategy, h.usual.marker, h.usual.ops⟩, h.following,
    fun r hr => h.reports r (by simp [hqueue, hr]), fun key hkey => ?_, fun home hh hmark => ?_⟩
  · rcases hkeys key hkey with hold | hnew
    · exact h.keys key hold
    · exact hnew
  · have hold := h.settles home hh hmark
    rw [hqueue, List.map_cons] at hold
    exact hold _ (hleads home hh hmark)

/-- **Every step keeps the invariant.** -/
theorem step (h : CatchesUp root w) (hstep : LoaderWorld.Step root w w') : CatchesUp root w' := by
  cases hstep with
  | write hn hdata hdisk hne hreports => exact h.write hn hdata hdisk hne hreports
  | remove hn hdisk => exact h.remove hn hdisk
  | rename hs ht hne hfile hdisk hends => exact h.rename hs ht hne hfile hdisk hends
  | takeIn hqueue => exact h.takeIn hqueue

theorem of_reachable (h : CatchesUp root w)
    (hrun : Relation.ReflTransGen (LoaderWorld.Step root) w w') : CatchesUp root w' := by
  induction hrun with
  | refl => exact h
  | tail _ hstep ih => exact ih.step hstep

end CatchesUp

/-! ## The beginning -/

namespace Loader

variable {disk : Disk} {root : Location} {l l' : Loader}

/-- A new loader with the usual settings for one root. -/
theorem of_new_usual {p : Path} {extension : Option (List Char)} {subfolders : Bool}
    (hroot : disk.canonical p = .ok (Disk.pathOf root))
    (h : Loader.new disk
      { LoaderConfig.usual [p] with extension := extension, subfolders := subfolders } = .ok l) :
    l.roots = [Disk.pathOf root] ∧ l.IsUsual ∧ l.store = .empty ∧ l.isWatching = false := by
  obtain ⟨hroots, hstrategy, hmarker, hops, hstore, hidle⟩ := of_new rfl rfl hroot h
  exact ⟨hroots, ⟨hstrategy, hmarker, hops⟩, (Option.some.inj hstore).symm, hidle⟩

/-- What a scan of a plain tree supplies: each file without a mark, and nothing else. -/
theorem mem_supplies_iff (hl : l.IsUsual) (tree : PlainTree disk root)
    (hdistinct : (disk.entries.map Prod.fst).Nodup) {key : Key} {content : Bytes} :
    (key, content) ∈ l.supplies disk
        (⟨Disk.pathOf root, true⟩ :: disk.visitsBelow (Disk.pathOf root) root) ↔
      ∃ home, FileNames home ∧ ¬ (filePath root home).IsMarked ∧ key = (filePath root home).text ∧
        disk.content? (filePath root home) = some content := by
  have hentry : ∀ names entry, names ≠ [] → (root ++ names, entry) ∈ disk.entries →
      disk.entry? (root ++ names) = some entry :=
    fun names entry hne => Disk.entry?_of_mem hdistinct (by simp [hne])
  have hnames : ∀ names entry, (root ++ names, entry) ∈ disk.entries → ∀ n ∈ names, IsName n := by
    intro names entry hmem
    rcases eq_or_ne names [] with rfl | hne
    · simp
    · exact (tree.below names entry hne (hentry names entry hne hmem)).1
  simp only [supplies, List.mem_filterMap, List.mem_filter, List.mem_cons,
    Disk.mem_visitsBelow tree.isTree tree.isName hnames]
  constructor
  · rintro ⟨v, ⟨rfl | ⟨names, entry, hne, hmem, -, rfl⟩, hfile⟩, hsupply⟩
    · cases hfile
    rcases (tree.below names entry hne (hentry names entry hne hmem)).2 with hdir | ⟨hn, -⟩
    · simp [hdir] at hfile
    · exact hl.exists_of_supply? tree hn hsupply
  · rintro ⟨home, hh, hmark, rfl, hcontent⟩
    obtain ⟨hle, hup, hat, -⟩ := (tree.content?_iff hh.isName).1 hcontent
    have hmem := Disk.mem_entries (by simp [hh.ne_nil]) hat
    refine ⟨⟨filePath root home, false⟩, ⟨.inr ⟨home, _, hh.ne_nil, hmem, ?_, rfl⟩, rfl⟩, ?_⟩
    · refine Nat.le_trans ?_ hle
      have hup := Disk.length_pathOf_le (root ++ home.dropLast) [home.getLast hh.ne_nil]
      rwa [List.append_assoc, List.dropLast_append_getLast] at hup
    · dsimp only
      rw [hl.supply?_unmarked hmark, hcontent]
      rfl

/-- **A loader that has started is caught up.** -/
theorem catchesUp_of_startWatching {p : Path} {extension : Option (List Char)}
    {subfolders runtime : Bool} (hroot : disk.canonical p = .ok (Disk.pathOf root))
    (tree : PlainTree disk root) (hdistinct : (disk.entries.map Prod.fst).Nodup)
    (hnew : Loader.new disk
      { LoaderConfig.usual [p] with extension := extension, subfolders := subfolders } = .ok l)
    (hstart : l.startWatching disk runtime = (.ok (), l')) : CatchesUp root ⟨disk, [], l'⟩ := by
  obtain ⟨hroots, hl, hstore, hidle⟩ := of_new_usual hroot hnew
  obtain ⟨hfollowing, scanned, w, hscan, rfl⟩ := exists_of_startWatching hidle hstart
  have hstanding : StandingDir disk root :=
    ⟨tree.isTree, tree.isName, tree.isDir, Disk.length_le_of_canonical hroot⟩
  rw [scan_eq hroots, hstanding.walk_eq] at hscan
  cases hscan
  have hget : ∀ key, (l.store.insertAll (l.supplies disk
      (⟨Disk.pathOf root, true⟩ :: disk.visitsBelow (Disk.pathOf root) root))).get? key =
      (l.supplies disk (⟨Disk.pathOf root, true⟩ ::
        disk.visitsBelow (Disk.pathOf root) root)).reverse.lookup key := by
    intro key
    rw [Store.get?_insertAll, hstore, Store.get?_empty, Option.or_none]
  refine ⟨tree, ⟨hl.strategy, hl.marker, hl.ops⟩, hfollowing, by simp, fun key hkey => ?_,
    fun home hh hmark => ?_⟩
  · dsimp only at hkey
    rw [hget, List.lookup_isSome_iff] at hkey
    obtain ⟨⟨other, content⟩, hmem, hother⟩ := hkey
    rw [beq_iff_eq] at hother
    obtain ⟨home, hh, hmark, htext, -⟩ :=
      (mem_supplies_iff hl tree hdistinct).1 (List.mem_reverse.1 hmem)
    exact ⟨home, hh, hmark, hother.trans htext⟩
  · show (l.store.insertAll _).get? _ = disk.content? (filePath root home)
    rw [hget]
    have hmem : ∀ content, ((filePath root home).text, content) ∈ (l.supplies disk
        (⟨Disk.pathOf root, true⟩ :: disk.visitsBelow (Disk.pathOf root) root)).reverse ↔
        disk.content? (filePath root home) = some content := by
      intro content
      rw [List.mem_reverse, mem_supplies_iff hl tree hdistinct]
      constructor
      · rintro ⟨other, ho, -, htext, hcontent⟩
        rwa [text_filePath_inj hh ho htext]
      · intro hcontent
        exact ⟨home, hh, hmark, rfl, hcontent⟩
    refine Option.ext fun content => ?_
    rw [lookup_eq_some_iff_mem, hmem]
    intro v v' hv hv'
    rw [hmem] at hv hv'
    rwa [hv, Option.some_inj] at hv'

end Loader

/-! ## The store mirrors the files -/

/-- The store holds the content of every file below the root that carries no mark, under the text of
its path, and nothing else. -/
def Store.Mirrors (store : Store) (disk : Disk) (root : Location) : Prop :=
  ∀ key content, store.get? key = some content ↔
    ∃ names, names ≠ [] ∧ (∀ n ∈ names, IsName n) ∧ ¬ (filePath root names).IsMarked ∧
      key = (filePath root names).text ∧ disk.read (filePath root names) = .ok content

/-- A loader that is caught up and has nothing left to take in mirrors the files. -/
theorem CatchesUp.mirrors {root : Location} {w : LoaderWorld} (h : CatchesUp root w)
    (hqueue : w.queue = []) : w.loader.store.Mirrors w.disk root := by
  have hget : ∀ home, FileNames home → ¬ (filePath root home).IsMarked →
      w.loader.store.get? (filePath root home).text = w.disk.content? (filePath root home) := by
    intro home hh hmark
    have hsettles := h.settles home hh hmark
    rwa [hqueue] at hsettles
  intro key content
  constructor
  · intro hkey
    obtain ⟨home, hh, hmark, rfl⟩ := h.keys key (by rw [hkey]; rfl)
    rw [hget home hh hmark, Disk.content?_eq_some] at hkey
    exact ⟨home, hh.ne_nil, hh.isName, hmark, rfl, hkey.1⟩
  · rintro ⟨home, hne, hname, hmark, rfl, hread⟩
    have hat := ((Disk.read_pathOf (h.tree.isName_append hname) (h.tree.linkFree home)).1 hread).2.2
    rcases (h.tree.below home _ hne hat).2 with hdir | ⟨hh, data, hdata, hfile⟩
    · cases hdir
    · cases hfile
      rw [hget home hh hmark, Disk.content?_eq_some]
      exact ⟨hread, hdata⟩

/-- **A loader catches up with its files**: whatever happened to them since it has started, and
however late it heard of it, once it has taken in every report its store mirrors the files. -/
theorem mirrors_of_reachable {disk : Disk} {root : Location} {l l' : Loader} {w : LoaderWorld}
    {p : Path} {extension : Option (List Char)} {subfolders runtime : Bool}
    (hroot : disk.canonical p = .ok (Disk.pathOf root)) (tree : PlainTree disk root)
    (hdistinct : (disk.entries.map Prod.fst).Nodup)
    (hnew : Loader.new disk
      { LoaderConfig.usual [p] with extension := extension, subfolders := subfolders } = .ok l)
    (hstart : l.startWatching disk runtime = (.ok (), l'))
    (hrun : Relation.ReflTransGen (LoaderWorld.Step root) ⟨disk, [], l'⟩ w)
    (hqueue : w.queue = []) : w.loader.store.Mirrors w.disk root := by
  have hbegin := Loader.catchesUp_of_startWatching hroot tree hdistinct hnew hstart
  exact (hbegin.of_reachable hrun).mirrors hqueue

/-- A directory with one file in it. -/
def oneFile : Disk := ⟨[([[114]], .dir), ([[114], [102]], .file [49])], []⟩

theorem plainTree_oneFile : PlainTree oneFile [[114]] := by
  refine ⟨by decide, by decide, by decide, fun names entry hne hentry => ?_⟩
  have hmem := Disk.mem_entries (by simp) hentry
  obtain ⟨rfl, rfl⟩ : names = [[102]] ∧ entry = .file [49] := by simpa [oneFile, hne] using hmem
  exact ⟨by decide, .inr ⟨by decide, [49], by decide, rfl⟩⟩

/-- A run in which the file is saved by way of a staged copy, and the reports come when all is
over. -/
theorem exists_savedFile (l : Loader) : ∃ w,
    Relation.ReflTransGen (LoaderWorld.Step [[114]]) ⟨oneFile, [], l⟩ w ∧ w.queue = [] ∧
      w.disk.read (filePath [[114]] [[102]]) = .ok [50] := by
  have hstaged : FileNames [[102, 126]] := by decide
  have hproper : FileNames [[102]] := by decide
  have hdata : ([50] : Bytes) ≠ [] := by decide
  have hcreated : [Notification.mk .create [filePath [[114]] [[102, 126]]]] ≠ [] := by simp
  refine ⟨_, .head (.write hstaged hdata rfl hcreated (by simp)) <|
    .head (.rename hstaged hproper (by decide) rfl rfl (.inr ⟨rfl, rfl⟩)) <|
    .head (.takeIn rfl) <| .head (.takeIn rfl) <| .head (.takeIn rfl) .refl, rfl, rfl⟩

theorem mirrors_of_savedFile : ∃ (l l' : Loader) (w : LoaderWorld),
    Loader.new oneFile { LoaderConfig.usual [filePath [[114]] []] with
      extension := none, subfolders := false } = .ok l ∧
    l.startWatching oneFile true = (.ok (), l') ∧ w.queue = [] ∧
    w.loader.store.Mirrors w.disk [[114]] ∧
    w.loader.store.get? (filePath [[114]] [[102]]).text = some [50] := by
  obtain ⟨l, hnew⟩ : ∃ l, Loader.new oneFile { LoaderConfig.usual [filePath [[114]] []] with
      extension := none, subfolders := false } = .ok l := ⟨_, rfl⟩
  obtain ⟨l', hstart⟩ : ∃ l', l.startWatching oneFile true = (.ok (), l') := by
    cases hnew
    exact ⟨_, rfl⟩
  obtain ⟨w, hrun, hqueue, hread⟩ := exists_savedFile l'
  have hmirrors := mirrors_of_reachable rfl plainTree_oneFile (by decide) hnew hstart hrun hqueue
  refine ⟨l, l', w, hnew, hstart, hqueue, hmirrors, (hmirrors _ _).2 ?_⟩
  exact ⟨[[102]], by decide, by decide, (fun h => nomatch h.2), rfl, hread⟩

end CertRotation
