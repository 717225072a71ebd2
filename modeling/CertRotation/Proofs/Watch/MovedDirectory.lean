import CertRotation.Proofs.Text.Utf8
import CertRotation.Proofs.Watch.Lifetime

/-!
# Directories that come and go

A directory is reported by its own path only.  When one appears, the watcher absorbs it and tells
the loader nothing, so the files that came with it are not loaded; when one departs, the loader
drops the key that the directory itself would have, and keeps the entries of the files below it.

* `Loader.FollowsSubfolders` — the loader follows changes at its roots and below them;
* `Loader.agrees_iff_of_appeared` — after the report of a directory that appeared, the store agrees
  with a scan on a key if and only if it did so before;
* `Loader.get?_of_departed` — after the report of a directory that departed, the entries below it
  are what they were, and they last.
-/

set_option autoImplicit false

namespace CertRotation

/-! ## Paths below a directory -/

theorem Utf8.lossy_ne_nil {bytes : Bytes} (h : bytes ≠ []) : lossy bytes ≠ [] := by
  intro hnil
  refine h ?_
  rw [← bytes_pieces bytes, List.map_eq_nil_iff.1 hnil, List.flatMap_nil]

namespace Path

variable {p : Path} {name : Bytes}

/-- The text of a path grows with every name. -/
theorem length_text_child (h : name ≠ []) : p.text.length < (p.child name).text.length := by
  have hname : 0 < (Utf8.lossy name).length := List.length_pos_iff.2 (Utf8.lossy_ne_nil h)
  rw [child, text, text]
  split
  · rename_i hend
    rcases hend with hnil | hlast
    · rw [hnil]
      exact hname
    · obtain ⟨front, heq⟩ := List.getLast?_eq_some_iff.1 hlast
      have hshort := Utf8.lossy_append_plain Disk.isPlain_separator front []
      have hlong := Utf8.lossy_append_plain Disk.isPlain_separator front name
      rw [heq, List.append_assoc, List.singleton_append, hshort, hlong, List.length_append,
        List.length_append]
      exact Nat.add_lt_add_left (Nat.succ_lt_succ hname) _
  · rw [Utf8.lossy_append_plain Disk.isPlain_separator, List.length_append]
    exact Nat.lt_add_of_pos_right (Nat.succ_pos _)

theorem length_text_le_descend {names : Location} (h : ∀ name ∈ names, name ≠ []) :
    p.text.length ≤ (Disk.descend p names).text.length := by
  induction names generalizing p with
  | nil => exact Nat.le_refl _
  | cons name rest ih =>
    obtain ⟨hname, hrest⟩ := List.forall_mem_cons.1 h
    exact Nat.le_trans (Nat.le_of_lt (length_text_child hname)) (ih hrest)

/-- A path below a directory reads differently. -/
theorem text_descend_ne {names : Location} (hne : names ≠ []) (h : ∀ name ∈ names, name ≠ []) :
    (Disk.descend p names).text ≠ p.text := by
  cases names with
  | nil => exact absurd rfl hne
  | cons name rest =>
    obtain ⟨hname, hrest⟩ := List.forall_mem_cons.1 h
    intro htext
    have hle := length_text_le_descend (p := p.child name) hrest
    have heq : (Disk.descend (p.child name) rest).text = p.text := htext
    rw [heq] at hle
    exact Nat.not_lt_of_le hle (length_text_child hname)

end Path

/-! ## Loaders that follow subfolders -/

namespace Loader

variable {disk : Disk} {l l' : Loader} {kind : NotificationKind} {dir : Path}

/-- The loader follows changes at its roots and in the directories below them. -/
def FollowsSubfolders (l : Loader) : Prop :=
  ∃ w callback, l.watcher = some w ∧ w.running = true ∧ w.onChange = some callback ∧
    w.subfolders = true

/-- **A loader for subfolders that has started** follows them. -/
theorem followsSubfolders_of_startWatching {runtime : Bool} (hl : l.isWatching = false)
    (hsub : l.subfolders = true) (h : l.startWatching disk runtime = (.ok (), l')) :
    l'.FollowsSubfolders := by
  obtain ⟨scanned, w, hscan, rfl, roots, watched, rfl⟩ := startWatching_ok hl h
  have hsnd : (l.scan disk).2 = scanned := congrArg Prod.snd hscan
  rw [snd_scan] at hsnd
  subst hsnd
  exact ⟨_, fun _ => .returned, rfl, rfl, rfl, hsub⟩

/-- Scans and reports do not keep a loader from following subfolders. -/
theorem FollowsSubfolders.act (h : l.FollowsSubfolders) (a : LoaderAct) :
    (l.act a).FollowsSubfolders := by
  obtain ⟨w, callback, hw, hrun, hcall, hsub⟩ := h
  cases a with
  | scan disk =>
    rw [Loader.act, snd_scan]
    exact ⟨w, callback, hw, hrun, hcall, hsub⟩
  | report disk report =>
    obtain ⟨watched, heq⟩ := exists_notified_eq hw hrun report
    obtain ⟨store, hstore⟩ := exists_foldl_handle disk
      { l with watcher := some { w with watched := watched } }
      ((report.changes disk).filter (w.handsOn disk))
    rw [Loader.act, heq, hstore]
    exact ⟨_, callback, rfl, hrun, hcall, hsub⟩

/-! ## A directory that appears -/

/-- What a scan leaves under a key: the content of the last file that it comes by and that has the
key. -/
def found? (disk : Disk) (l : Loader) (key : Key) : Option Bytes :=
  (l.scanned disk).reverse.lookup key

/-- **A directory that appeared** is absorbed, and the store stays as it is. -/
theorem notified_eq_of_appeared (hl : l.FollowsSubfolders)
    (hop : Notification.op? disk kind dir = some .create) (hdir : disk.isDir dir = true) :
    ∃ w, l.notified disk ⟨kind, [dir]⟩ = { l with watcher := some w } ∧
      ∀ p ∈ disk.directories dir true, watchFailure? disk p = none → w.watched.any p.same := by
  obtain ⟨w, callback, hw, hrun, hcall, hsub⟩ := hl
  obtain ⟨watched, effects, heq, hnone, -, hall⟩ :=
    w.exists_absorbAll_eq disk (disk.directories dir true)
  refine ⟨{ w with watched := watched }, ?_, hall⟩
  have hchanges : Notification.changes disk ⟨kind, [dir]⟩ = [⟨dir, .create⟩] := by
    simp [Notification.changes, hop]
  have hhandle : w.handle disk ⟨dir, .create⟩ = ({ w with watched := watched }, effects) := by
    rw [PathWatcher.handle, if_pos ⟨hsub, rfl, hdir⟩, PathWatcher.absorb, if_pos hrun, heq]
  have hnotified : w.notified disk ⟨kind, [dir]⟩ = ({ w with watched := watched }, effects) := by
    rw [PathWatcher.notified, if_pos hrun, PathWatcher.dispatch, hchanges, PathWatcher.handleAll,
      hhandle]
    exact Prod.ext rfl (List.append_nil _)
  rw [notified, hw]
  dsimp only
  rw [hnotified]
  dsimp only
  rw [hnone, List.foldl_nil]

/-- **The files that come with a directory are not loaded.**  The report of a directory that
appeared puts it and the directories below it under watch, and that is all: afterwards the store
agrees with a scan on a key if and only if it held before what the scan finds for the key, and what
it did not hold it does not hold. -/
theorem agrees_iff_of_appeared (hl : l.FollowsSubfolders)
    (hop : Notification.op? disk kind dir = some .create) (hdir : disk.isDir dir = true) :
    (∃ w, (l.notified disk ⟨kind, [dir]⟩).watcher = some w ∧
      ∀ p ∈ disk.directories dir true, watchFailure? disk p = none → w.watched.any p.same) ∧
    ∀ key, (l.notified disk ⟨kind, [dir]⟩).store.get? key = l.store.get? key ∧
      ((l.notified disk ⟨kind, [dir]⟩).store.get? key =
          ((l.notified disk ⟨kind, [dir]⟩).scan disk).2.store.get? key ↔
        ∀ content, l.found? disk key = some content → l.store.get? key = some content) := by
  obtain ⟨w, heq, hwatched⟩ := notified_eq_of_appeared hl hop hdir
  rw [heq]
  refine ⟨⟨w, rfl, hwatched⟩, fun key => ⟨rfl, ?_⟩⟩
  have hscanned : scanned disk { l with watcher := some w } = l.scanned disk :=
    scannedIn_congr l.store (some w) l.roots
  rw [snd_scan, Store.get?_insertAll, hscanned, found?]
  dsimp only
  cases (l.scanned disk).reverse.lookup key with
  | none => simp
  | some content => simp

/-- A directory with nothing in it. -/
def bareTree : Disk := ⟨[([[114]], .dir)], []⟩

/-- The directory with another one in it, which holds a file. -/
def deepTree : Disk :=
  ⟨[([[114]], .dir), ([[114], [100]], .dir), ([[114], [100], [102]], .file [49])], []⟩

/-- The usual settings for the directory and all that is below it. -/
def deepLoader : LoaderConfig := { LoaderConfig.usual [⟨[47, 114]⟩] with subfolders := true }

def deepDirectory : Path := ⟨[47, 114, 47, 100]⟩

def deepFile : Path := ⟨[47, 114, 47, 100, 47, 102]⟩

/-- The directory is moved in with its file, and the store has less than a scan would give it. -/
theorem agrees_iff_of_newcomer : ∃ l l' : Loader, Loader.new bareTree deepLoader = .ok l ∧
    l.startWatching bareTree true = (.ok (), l') ∧
    Notification.op? deepTree (.move .destination) deepDirectory = some .create ∧
    deepTree.isDir deepDirectory = true ∧
    (∃ w, (l'.notified deepTree ⟨.move .destination, [deepDirectory]⟩).watcher = some w ∧
      w.watched.any deepDirectory.same) ∧
    (l'.notified deepTree ⟨.move .destination, [deepDirectory]⟩).store.get? deepFile.text ≠
      ((l'.notified deepTree ⟨.move .destination, [deepDirectory]⟩).scan deepTree).2.store.get?
        deepFile.text := by
  obtain ⟨l, hnew⟩ : ∃ l, Loader.new bareTree deepLoader = .ok l := ⟨_, rfl⟩
  obtain ⟨l', hstart⟩ : ∃ l', l.startWatching bareTree true = (.ok (), l') := by
    cases hnew
    exact ⟨_, rfl⟩
  have hfollows : l'.FollowsSubfolders := by
    refine followsSubfolders_of_startWatching ?_ ?_ hstart
    · cases hnew
      rfl
    · cases hnew
      rfl
  have hop : Notification.op? deepTree (.move .destination) deepDirectory = some .create := rfl
  have hdir : deepTree.isDir deepDirectory = true := rfl
  obtain ⟨⟨w, hw, hwatched⟩, hagrees⟩ := agrees_iff_of_appeared hfollows hop hdir
  refine ⟨l, l', hnew, hstart, hop, hdir, ⟨w, hw, hwatched _ ?_ rfl⟩, fun hsame => ?_⟩
  · decide
  · have hheld := (hagrees deepFile.text).2.1 hsame [49]
    cases hnew
    cases hstart
    cases hheld rfl

/-- **A file comes with its directory and is missed**, although a scan would load it. -/
theorem newcomer_missed : ∃ l l' : Loader, Loader.new bareTree deepLoader = .ok l ∧
    l.startWatching bareTree true = (.ok (), l') ∧ Ops.create.meets l'.ops ∧
    deepTree.isDir deepDirectory = true ∧ deepTree.read deepFile = .ok [49] ∧
    l'.resolver.key? deepFile = some deepFile.text ∧
    (l'.notified deepTree ⟨.create, [deepDirectory]⟩).store.get? deepFile.text = none ∧
    ((l'.notified deepTree ⟨.create, [deepDirectory]⟩).scan deepTree).2.store.get? deepFile.text =
      some [49] :=
  ⟨_, _, rfl, rfl, rfl, rfl, rfl, rfl, rfl, rfl⟩

/-! ## A directory that departs -/

theorem get?_notified_of_departed (hl : l.FollowsSubfolders)
    (hfull : l.resolver.strategy = .fullPath) (hops : Ops.rename.meets l.ops)
    (hop : Notification.op? disk kind dir = some .rename) (key : Key) :
    (l.notified disk ⟨kind, [dir]⟩).store.get? key =
      if key = dir.text ∧ l.staged? dir key = none then none else l.store.get? key := by
  obtain ⟨w, callback, hw, hrun, hcall, hsub⟩ := hl
  have hchanges : Notification.changes disk ⟨kind, [dir]⟩ = [⟨dir, .rename⟩] := by
    simp [Notification.changes, hop]
  have hhands : w.handsOn disk ⟨dir, .rename⟩ = true := by
    simp [PathWatcher.handsOn, hcall, show Ops.rename ≠ Ops.create by decide]
  obtain ⟨watched, heq⟩ := exists_notified_eq hw hrun ⟨kind, [dir]⟩
  rw [hchanges, List.filter_singleton, hhands, cond_true, List.foldl_cons, List.foldl_nil] at heq
  have hkey : l.resolver.key? dir = some dir.text := by
    rw [KeyResolver.key?, hfull]
  have hdrop : Ops.rename.meets (Ops.remove.union .rename) := by decide
  rw [heq]
  refine (get?_handle_of_drop ?_ ?_ key).trans (if_congr (and_congr_left fun _ => ?_) rfl rfl)
  · exact hops
  · exact hdrop
  · dsimp only
    rw [hkey, Option.some.injEq, eq_comm]

/-- **The entries below a directory outlive it.**  The report of a directory that departed drops the
key that the directory itself would have, unless that is marked, and leaves every other entry as it
is.  So an entry below the directory stays, and it lasts as long as no scan comes by a file for its
key and no report names its path. -/
theorem get?_of_departed (hl : l.FollowsSubfolders) (hfull : l.resolver.strategy = .fullPath)
    (hops : Ops.rename.meets l.ops) (hop : Notification.op? disk kind dir = some .rename) :
    (∀ key, (l.notified disk ⟨kind, [dir]⟩).store.get? key =
      if key = dir.text ∧ l.staged? dir key = none then none else l.store.get? key) ∧
    ∀ (names : Location) (acts : List LoaderAct), names ≠ [] → (∀ name ∈ names, name ≠ []) →
      (∀ a ∈ acts, l.Spares (Disk.descend dir names).text a) →
        (acts.foldl act (l.notified disk ⟨kind, [dir]⟩)).store.get? (Disk.descend dir names).text =
          l.store.get? (Disk.descend dir names).text := by
  have hget := get?_notified_of_departed hl hfull hops hop
  refine ⟨hget, fun names acts hne hnames hspared => ?_⟩
  obtain ⟨store, watcher, heq⟩ := l.exists_act_eq (.report disk ⟨kind, [dir]⟩)
  have heq : l.notified disk ⟨kind, [dir]⟩ = { l with store := store, watcher := watcher } := heq
  have hbelow := hget (Disk.descend dir names).text
  rw [if_neg fun h => Path.text_descend_ne hne hnames h.1, heq] at hbelow
  rw [heq]
  exact (get?_foldl_act fun a ha => (spares_congr store watcher).2 (hspared a ha)).trans hbelow

/-- The directory is moved out, and neither that nor a scan of what remains does away with the
entry. -/
theorem get?_of_leaver : ∃ l l' : Loader, Loader.new deepTree deepLoader = .ok l ∧
    l.startWatching deepTree true = (.ok (), l') ∧
    Notification.op? bareTree (.move .unsaid) deepDirectory = some .rename ∧
    (∀ key, (l'.notified bareTree ⟨.move .unsaid, [deepDirectory]⟩).store.get? key =
      if key = deepDirectory.text ∧ l'.staged? deepDirectory key = none then none
      else l'.store.get? key) ∧
    ((l'.notified bareTree ⟨.move .unsaid, [deepDirectory]⟩).scan bareTree).2.store.get?
      deepFile.text = some [49] := by
  obtain ⟨l, hnew⟩ : ∃ l, Loader.new deepTree deepLoader = .ok l := ⟨_, rfl⟩
  obtain ⟨l', hstart⟩ : ∃ l', l.startWatching deepTree true = (.ok (), l') := by
    cases hnew
    exact ⟨_, rfl⟩
  have hfollows : l'.FollowsSubfolders := by
    refine followsSubfolders_of_startWatching ?_ ?_ hstart
    · cases hnew
      rfl
    · cases hnew
      rfl
  have hop : Notification.op? bareTree (.move .unsaid) deepDirectory = some .rename := rfl
  have hfull : l'.resolver.strategy = .fullPath := by
    cases hnew
    cases hstart
    rfl
  have hops : Ops.rename.meets l'.ops := by
    cases hnew
    cases hstart
    rfl
  have hspared : ∀ a ∈ [LoaderAct.scan bareTree], l'.Spares deepFile.text a := by
    refine List.forall_mem_singleton.2 fun content hmem => ?_
    cases hnew
    cases hstart
    cases hmem
  obtain ⟨hget, hlasts⟩ := get?_of_departed hfollows hfull hops hop
  refine ⟨l, l', hnew, hstart, hop, hget, ?_⟩
  refine (hlasts [[102]] [.scan bareTree] (by decide) (by decide) hspared).trans ?_
  cases hnew
  cases hstart
  rfl

/-- **A file departs with its directory and its entry stays.** -/
theorem leaver_kept : ∃ l l' : Loader, Loader.new deepTree deepLoader = .ok l ∧
    l.startWatching deepTree true = (.ok (), l') ∧ l'.resolver.strategy = .fullPath ∧
    Ops.rename.meets l'.ops ∧ bareTree.occupied deepDirectory = false ∧
    (l'.notified bareTree ⟨.move .origin, [deepDirectory]⟩).store.get? deepFile.text =
      some [49] :=
  ⟨_, _, rfl, rfl, rfl, rfl, rfl, rfl⟩

end Loader

end CertRotation
