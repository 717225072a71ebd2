import CertRotation.Proofs.Disk.Listing
import CertRotation.Proofs.Watch.Lifetime
import CertRotation.Proofs.Watch.NearestRoot

/-!
# What a scan finds

A scan comes to one path after another, and each of them stands for a file and a key: for itself
and its own key, or, where it is a staged copy, for what is left without the mark.  If that file can
be read and is not empty, the path counts.  So the last path that counts for a key decides, and a
key for which none counts keeps what it had.

Which path is the last one depends on the order in which directories are listed, and on the order of
the roots.  That only matters where two paths that count for one key lead to different contents;
otherwise it is enough that the same paths are come to, in any order and however often.

A directory that cannot be entered is in nobody's way where it lies below a root.  A scan stops only
at a root that leads nowhere or to such a directory, and it has then done what a scan of the roots
before it does.  There is one thing more: a root that is a link is come to before it turns out where
the link leads, and if its name is that of a staged copy, what it stands for has been loaded by then.

* `Disk.visited` — the paths that a scan comes to;
* `Disk.IsClosedLink` — the roots that a scan loads before it stops at them;
* `Loader.source?`, `Loader.Counts` — what a path stands for, and the paths that count;
* `Loader.Holds` — what a store holds after them;
* `Loader.scanRoots_eq` — a scan of some roots, whether or not it succeeds;
* `Loader.Resembles` — two loaders that scan the same ground;
* `Loader.scan_spec` — **what a scan finds**;
* `Loader.scan_exceptions` — what it might be taken for and is not.
-/

set_option autoImplicit false

namespace CertRotation

/-! ## The paths that a scan comes to -/

/-- The paths of the visits that are no directories. -/
def Walk.files (w : Walk) : List Path := (w.visits.filter fun v => !v.isDir).map Visit.path

theorem Walk.mem_files {w : Walk} {p : Path} : p ∈ w.files ↔ ⟨p, false⟩ ∈ w.visits := by
  rw [files, List.mem_map]
  simp only [List.mem_filter, Bool.not_eq_true']
  constructor
  · rintro ⟨⟨q, isDir⟩, ⟨hmem, rfl⟩, rfl⟩
    exact hmem
  · exact fun hmem => ⟨⟨p, false⟩, ⟨hmem, rfl⟩, rfl⟩

namespace Disk

variable {disk disk' : Disk} {roots tops before after : List Path} {root p : Path}
  {fault : Fault}

/-- Everything at and below some roots that is no directory, in the order in which it is come to, up
to the first root at which a scan cannot go on. -/
def visited (disk : Disk) : List Path → List Path
  | [] => []
  | root :: roots =>
    match disk.walk root with
    | .error _ => []
    | .ok w => w.files ++ if w.fault?.isSome then [] else visited disk roots

theorem visited_append (h : ∀ root ∈ before, disk.CanWalk root) :
    disk.visited (before ++ after) = disk.visited before ++ disk.visited after := by
  induction before with
  | nil => rfl
  | cons root before ih =>
    obtain ⟨hroot, hbefore⟩ := List.forall_mem_cons.1 h
    obtain ⟨w, hwalk, hfault⟩ := hroot.exists_walk
    simp only [List.cons_append, visited, hwalk, hfault, Option.isSome_none, Bool.false_eq_true,
      if_false, ih hbefore, List.append_assoc]

theorem mem_visited (h : ∀ root ∈ roots, disk.CanWalk root) : p ∈ disk.visited roots ↔
    ∃ root ∈ roots, ∃ w, disk.walk root = .ok w ∧ ⟨p, false⟩ ∈ w.visits := by
  induction roots with
  | nil => simp [visited]
  | cons root roots ih =>
    obtain ⟨hroot, hroots⟩ := List.forall_mem_cons.1 h
    obtain ⟨w, hwalk, hfault⟩ := hroot.exists_walk
    rw [visited, hwalk]
    dsimp only
    rw [hfault, if_neg (by simp), List.mem_append, ih hroots, Walk.mem_files]
    simp [hwalk]

/-- The root is a link to a directory that cannot be entered.  A walk lists such a link before it
stops there. -/
def IsClosedLink (disk : Disk) (root : Path) : Prop :=
  (∃ target, disk.linkStat root = .ok (.link target)) ∧
    ∃ fault, disk.stat root = .ok (.closed fault)

/-- **What a scan comes to at a root at which it cannot go on** is at most the root itself. -/
theorem visited_of_walkFault? (h : disk.walkFault? root = some fault) (after : List Path) :
    (disk.IsClosedLink root → disk.visited (root :: after) = [root]) ∧
      (¬ disk.IsClosedLink root → disk.visited (root :: after) = []) := by
  rcases disk.walk_cases root with ⟨other, hwalk, -⟩ | ⟨w, hwalk, hfault⟩
  · refine ⟨fun hlink => ?_, fun _ => by rw [visited, hwalk]⟩
    obtain ⟨-, fault, hclosed⟩ := hlink
    obtain ⟨w, hok, -⟩ := exists_walk_of_stat hclosed
    rw [hwalk] at hok
    cases hok
  obtain ⟨stands, base, entry, hstands, hbase, hentry, rfl⟩ := walk_eq_ok.1 hwalk
  obtain rfl : entry = .closed fault := by
    rw [hfault] at h
    cases entry <;> cases h
    rfl
  have hstat : disk.stat root = .ok (.closed fault) :=
    bind_eq_ok.2 ⟨base, hbase, entryAt_eq_ok.2 hentry⟩
  have hvisited : disk.visited (root :: after) = if stands.isDir then [] else [root] := by
    rw [visited, hwalk]
    cases hdir : stands.isDir <;> simp [enter, Walk.files, Entry.closedBy?]
  rw [hvisited]
  rcases disk.linkStat_eq_stat_or root with hsame | ⟨target, hlink⟩
  · rw [hsame, hstat] at hstands
    cases hstands
    refine ⟨fun hlink => ?_, fun _ => rfl⟩
    obtain ⟨⟨target, hlink⟩, -⟩ := hlink
    rw [hsame, hstat] at hlink
    cases hlink
  · rw [hlink] at hstands
    cases hstands
    exact ⟨fun _ => rfl, fun hnot => absurd ⟨⟨target, hlink⟩, fault, hstat⟩ hnot⟩

/-- The root is one of some other roots, or a walk from one of them comes by it.  Where a link
stands that is not enough, since only the walk that starts there goes into it. -/
def IsCovered (disk : Disk) (tops : List Path) (root : Path) : Prop :=
  root ∈ tops ∨ (∀ target, disk.linkStat root ≠ .ok (.link target)) ∧
    ∃ top ∈ tops, ∃ w, disk.walk top = .ok w ∧ ∃ v ∈ w.visits, v.path = root

/-- Roots that are covered by others add nothing. -/
theorem visited_subset (named : disk.IsNamed) (hroots : ∀ root ∈ roots, disk.CanWalk root)
    (htops : ∀ root ∈ tops, disk.CanWalk root) (h : ∀ root ∈ roots, disk.IsCovered tops root) :
    disk.visited roots ⊆ disk.visited tops := by
  intro p hp
  obtain ⟨root, hroot, w, hwalk, hvisit⟩ := (mem_visited hroots).1 hp
  refine (mem_visited htops).2 ?_
  rcases h root hroot with htop | ⟨hlink, top, htop, w', hwalk', hmem⟩
  · exact ⟨root, htop, w, hwalk, hvisit⟩
  · exact ⟨top, htop, w', hwalk', walk_subset named hwalk' hmem hlink hwalk hvisit⟩

theorem Relists.walkFault?_eq (h : Relists disk' disk)
    (hnodup : (disk.entries.map Prod.fst).Nodup) (root : Path) :
    disk'.walkFault? root = disk.walkFault? root := by
  rw [walkFault?, walkFault?, h.stat_eq hnodup]

/-- The same paths are come to, whatever order directories are listed in. -/
theorem Relists.visited_perm (h : Relists disk' disk)
    (hnodup : (disk.entries.map Prod.fst).Nodup) (roots : List Path) :
    (disk'.visited roots).Perm (disk.visited roots) := by
  induction roots with
  | nil => exact .refl _
  | cons root roots ih =>
    rw [visited, visited]
    rcases disk.walk_cases root with ⟨fault, hwalk, hfault⟩ | ⟨w, hwalk, -⟩
    · rw [← h.walkFault?_eq hnodup] at hfault
      rcases disk'.walk_cases root with ⟨other, hwalk', -⟩ | ⟨w', hwalk', -⟩
      · rw [hwalk, hwalk']
      · obtain ⟨w, hok, -⟩ := h.symm.exists_walk (h.nodup hnodup) hwalk'
        rw [hwalk] at hok
        cases hok
    · obtain ⟨w', hwalk', hperm, hfault⟩ := h.exists_walk hnodup hwalk
      rw [hwalk, hwalk']
      dsimp only
      rw [hfault]
      refine ((hperm.filter _).map _).append ?_
      split
      · exact .refl _
      · exact ih

end Disk

/-- Where no key comes with two values, the order of insertions and their repetition make no
difference. -/
theorem Store.get?_insertAll_congr {store store' : Store} {entries entries' : List (Key × Bytes)}
    (hagree : ∀ key v v', (key, v) ∈ entries → (key, v') ∈ entries → v = v')
    (hmem : ∀ e, e ∈ entries' ↔ e ∈ entries) (hstore : ∀ key, store'.get? key = store.get? key)
    (key : Key) : (store'.insertAll entries').get? key = (store.insertAll entries).get? key := by
  have hlookup : entries'.reverse.lookup key = entries.reverse.lookup key := by
    refine Option.ext fun value => ?_
    rw [lookup_eq_some_iff_mem, lookup_eq_some_iff_mem, List.mem_reverse, List.mem_reverse, hmem]
    · simpa only [List.mem_reverse] using hagree key
    · simpa only [List.mem_reverse, hmem] using hagree key
  rw [get?_insertAll, get?_insertAll, hlookup, hstore]

namespace Loader

variable {disk disk' : Disk} {l m : Loader} {p : Path} {key : Key} {content : Bytes}

/-! ## The paths that count -/

/-- What a path stands for: the file that is read for it, and the key that its content is kept
under. -/
def source? (l : Loader) (p : Path) : Option (Path × Key) :=
  (l.resolver.key? p).map fun key => (l.staged? p key).getD (p, key)

/-- The path carries the mark of a staged copy. -/
def marks (l : Loader) (p : Path) : Bool :=
  match l.marker, Utf8.decode? p.bytes with
  | some marker, some text => marker.occursIn text
  | _, _ => false

theorem isSome_staged? (l : Loader) (p : Path) (key : Key) :
    (l.staged? p key).isSome = l.marks p := by
  rw [staged?, marks]
  cases l.marker with
  | none => rfl
  | some marker =>
    simp only [Option.bind_eq_bind, Option.bind_some]
    cases Utf8.decode? p.bytes with
    | none => rfl
    | some text =>
      dsimp only [Option.bind_some]
      cases marker.occursIn text <;> rfl

/-- A path without the mark stands for itself. -/
theorem source?_of_not_marks (h : l.marks p = false) :
    l.source? p = (l.resolver.key? p).map fun key => (p, key) := by
  have hnone : ∀ key, l.staged? p key = none := fun key => by
    rw [← Option.not_isSome_iff_eq_none, isSome_staged?, h]
    exact Bool.false_ne_true
  simp only [source?, hnone, Option.getD_none]

theorem supply?_eq (disk : Disk) (l : Loader) (p : Path) :
    l.supply? disk p = (l.source? p).bind fun source =>
      (disk.content? source.1).map fun content => (source.2, content) := by
  rw [supply?, source?]
  cases l.resolver.key? p <;> rfl

/-- The path counts: what it stands for can be read and is not empty. -/
def Counts (disk : Disk) (l : Loader) (key : Key) (content : Bytes) (p : Path) : Prop :=
  ∃ file, l.source? p = some (file, key) ∧ disk.read file = .ok content ∧ content ≠ []

theorem supply?_eq_some_iff : l.supply? disk p = some (key, content) ↔
    l.Counts disk key content p := by
  simp only [supply?_eq, Option.bind_eq_some_iff, Option.map_eq_some_iff, Prod.exists,
    Prod.mk.injEq, Disk.content?_eq_some, Counts]
  constructor
  · rintro ⟨file, other, hsource, bytes, hread, rfl, rfl⟩
    exact ⟨file, hsource, hread⟩
  · rintro ⟨file, hsource, hread⟩
    exact ⟨file, key, hsource, content, hread, rfl, rfl⟩

/-- What the store holds after some paths have been come to: for each key what the last path that
counts leads to, and what the loader held if none counts. -/
def Holds (disk : Disk) (l : Loader) (paths : List Path) (store : Store) : Prop :=
  ∀ key content, store.get? key = some content ↔
    (∃ before p after, paths = before ++ p :: after ∧ l.Counts disk key content p ∧
      ∀ later ∈ after, ∀ other, ¬ l.Counts disk key other later) ∨
    (∀ p ∈ paths, ∀ other, ¬ l.Counts disk key other p) ∧ l.store.get? key = some content

/-- Loading what the paths supply, in order, leaves what the last of them leads to. -/
theorem holds_insertAll (disk : Disk) (l : Loader) (paths : List Path) :
    l.Holds disk paths (l.store.insertAll (paths.filterMap (l.supply? disk))) := by
  intro key content
  rw [Store.get?_insertAll, Option.or_eq_some_iff, lookup_reverse_filterMap_eq_some_iff,
    List.lookup_eq_none_iff]
  simp only [supply?_eq_some_iff, ne_eq]
  refine or_congr_right (and_congr_left fun _ => ⟨fun hnone p hp other hcounts => ?_,
    fun hnone e he => ?_⟩)
  · have hmem : (key, other) ∈ (paths.filterMap (l.supply? disk)).reverse :=
      List.mem_reverse.2 (List.mem_filterMap.2 ⟨p, hp, supply?_eq_some_iff.2 hcounts⟩)
    exact bne_iff_ne.1 (hnone _ hmem) rfl
  · obtain ⟨p, hp, he⟩ := List.mem_filterMap.1 (List.mem_reverse.1 he)
    refine bne_iff_ne.2 fun hkey => hnone p hp e.2 (supply?_eq_some_iff.1 ?_)
    rw [he, hkey]

/-- A path that leads to nothing that can be read supplies nothing. -/
theorem supply?_of_not_marks (hmarks : l.marks p = false) {fault : Fault}
    (hread : disk.read p = .error fault) : l.supply? disk p = none := by
  rw [supply?_eq, source?_of_not_marks hmarks, Option.bind_map, Option.bind_eq_none_iff]
  intro key _
  rw [Function.comp_apply, Disk.content?, hread]
  rfl

/-! ## Roots in order -/

theorem supplies_eq (disk : Disk) (l : Loader) (w : Walk) :
    l.supplies disk w.visits = w.files.filterMap (l.supply? disk) := by
  rw [supplies, Walk.files, List.filterMap_map]
  rfl

theorem scannedIn_eq (disk : Disk) (l : Loader) (roots : List Path) :
    l.scannedIn disk roots = (disk.visited roots).filterMap (l.supply? disk) := by
  induction roots with
  | nil => rfl
  | cons root roots ih =>
    rw [scannedIn, Disk.visited]
    cases disk.walk root with
    | error fault => rfl
    | ok w =>
      dsimp only
      rw [List.filterMap_append, supplies_eq, ih]
      split <;> rfl

/-- **A scan of some roots** goes on to the first one at which it cannot, and loads what it comes to
on the way. -/
theorem scanRoots_eq (disk : Disk) (l : Loader) (roots : List Path) :
    scanRoots disk l roots =
      (match disk.stop? roots with
        | none => .ok ()
        | some (root, fault) => .error (.initialScan root fault),
      { l with
        store := l.store.insertAll ((disk.visited roots).filterMap (l.supply? disk)) }) := by
  rw [← scannedIn_eq, ← snd_scanRoots]
  exact Prod.ext (fst_scanRoots disk l roots) rfl

theorem scan_of_canWalk (h : ∀ root ∈ l.roots, disk.CanWalk root) :
    l.scan disk = (.ok (), { l with
      store := l.store.insertAll ((disk.visited l.roots).filterMap (l.supply? disk)) }) := by
  rw [scan, scanRoots_eq, Disk.stop?_eq_none.2 h]

/-- **What a failing scan has done**: what a scan of the roots before the one at which it stops does
and, if that is a link to a directory that cannot be entered, what loading its own path does. -/
theorem exists_of_not_canWalk (h : ∃ root ∈ l.roots, ¬ disk.CanWalk root) :
    ∃ before root after fault done store, l.roots = before ++ root :: after ∧
      (∀ r ∈ before, disk.CanWalk r) ∧ disk.walkFault? root = some fault ∧
      l.scan disk = (.error (.initialScan root fault), { l with store := store }) ∧
      l.scanRoots disk before = (.ok (), { l with store := done }) ∧
      l.Holds disk (disk.visited before) done ∧
      (¬ disk.IsClosedLink root → store = done) ∧
      (disk.IsClosedLink root →
        { l with store := store } = apply disk { l with store := done } root .create) ∧
      (l.marks root = false → store = done) := by
  obtain ⟨⟨root, fault⟩, hstop⟩ : ∃ stop, disk.stop? l.roots = some stop := by
    refine Option.ne_none_iff_exists'.1 fun hnone => ?_
    obtain ⟨root, hroot, hnot⟩ := h
    exact hnot (Disk.stop?_eq_none.1 hnone root hroot)
  obtain ⟨before, after, hroots, hfault, hbefore⟩ := Disk.stop?_eq_some.1 hstop
  obtain ⟨hlink, hnot⟩ := Disk.visited_of_walkFault? hfault after
  have hscan := scanRoots_eq disk l l.roots
  have hdone := scanRoots_eq disk l before
  rw [hstop, hroots, Disk.visited_append hbefore, List.filterMap_append, Store.insertAll_append,
    ← hroots] at hscan
  rw [Disk.stop?_eq_none.2 hbefore] at hdone
  have hone : [root].filterMap (l.supply? disk) = (l.supply? disk root).toList := by
    rw [List.filterMap_cons]
    cases l.supply? disk root <;> rfl
  refine ⟨before, root, after, fault, _, _, hroots, hbefore, hfault, hscan, hdone,
    holds_insertAll disk l _, fun h => ?_, fun h => ?_, fun hmarks => ?_⟩
  · rw [hnot h]
    rfl
  · rw [hlink h, apply_load (by decide), hone]
    rfl
  · by_cases h : disk.IsClosedLink root
    · have hread : disk.read root = .error .isDirectory := by
        obtain ⟨-, other, hstat⟩ := h
        rw [Disk.read, hstat]
      rw [hlink h, hone, supply?_of_not_marks hmarks hread]
      rfl
    · rw [hnot h]
      rfl

/-! ## The same ground -/

/-- Two loaders that scan the same ground: the roots of either are covered by those of the other
one, and they agree in the rest that a scan looks at.  Where keys are counted from the nearest root,
a further root within one of the others gives what lies below it other keys, and so is another
ground. -/
structure Resembles (disk : Disk) (m l : Loader) : Prop where
  key?_eq : ∀ p, m.resolver.key? p = l.resolver.key? p
  marker_eq : m.marker = l.marker
  get?_eq : ∀ key, m.store.get? key = l.store.get? key
  covered : ∀ root ∈ m.roots, disk.IsCovered l.roots root
  covers : ∀ root ∈ l.roots, disk.IsCovered m.roots root

/-- The loader with other roots, which its keys are then counted from as well. -/
def withRoots (l : Loader) (roots : List Path) : Loader :=
  { l with roots := roots, resolver := { l.resolver with roots := roots } }

/-- A loader with the same roots in another order, or some of them more often, scans the same
ground. -/
theorem resembles_withRoots {roots : List Path} (h : ∀ root, root ∈ roots ↔ root ∈ l.roots)
    (hresolver : l.resolver.roots = l.roots) : Resembles disk (l.withRoots roots) l where
  key?_eq := KeyResolver.key?_congr_roots (by rwa [hresolver]) l.resolver.strategy
    l.resolver.extension
  marker_eq := rfl
  get?_eq _ := rfl
  covered root hroot := .inl ((h root).1 hroot)
  covers root hroot := .inl ((h root).2 hroot)

/-- A loader with other roots scans the same ground if they cover each other, unless keys are
counted from the roots. -/
theorem resembles_of_covered {roots : List Path} (h : l.resolver.strategy ≠ .pathRelativeToRoot)
    (hcovered : ∀ root ∈ roots, disk.IsCovered l.roots root)
    (hcovers : ∀ root ∈ l.roots, disk.IsCovered roots root) :
    Resembles disk (l.withRoots roots) l where
  key?_eq p := by
    rw [withRoots, KeyResolver.key?, KeyResolver.key?]
    cases hstrategy : l.resolver.strategy with
    | pathRelativeToRoot => exact absurd hstrategy h
    | nameNoExtension => rfl
    | nameWithExtension => rfl
    | fullPath => rfl
  marker_eq := rfl
  get?_eq _ := rfl
  covered := hcovered
  covers := hcovers

theorem Resembles.supply?_eq (h : Resembles disk m l) (hrelists : disk'.Relists disk)
    (hnodup : (disk.entries.map Prod.fst).Nodup) : m.supply? disk' = l.supply? disk := by
  funext p
  rw [supply?, supply?, h.key?_eq]
  simp only [staged?, h.marker_eq, Disk.content?, hrelists.read_eq hnodup]

/-- No two of the paths count for one key with different contents. -/
def Agree (disk : Disk) (l : Loader) (paths : List Path) : Prop :=
  ∀ p ∈ paths, ∀ q ∈ paths, ∀ key content other,
    l.Counts disk key content p → l.Counts disk key other q → content = other

theorem agree_iff {paths : List Path} : l.Agree disk paths ↔
    ∀ p ∈ paths, ∀ q ∈ paths, ∀ e ∈ l.supply? disk p, ∀ other ∈ l.supply? disk q,
      e.1 = other.1 → e.2 = other.2 := by
  refine forall₂_congr fun p _ => forall₂_congr fun q _ => ⟨fun h e he other hother hkey => ?_,
    fun h key content other hcounts hcounts' => ?_⟩
  · refine h e.1 e.2 other.2 (supply?_eq_some_iff.1 he) (supply?_eq_some_iff.1 ?_)
    rw [hkey]
    exact hother
  · exact h (key, content) (supply?_eq_some_iff.2 hcounts) (key, other)
      (supply?_eq_some_iff.2 hcounts') rfl

instance (paths : List Path) : Decidable (l.Agree disk paths) :=
  decidable_of_iff _ agree_iff.symm

/-- **Neither the order nor the overlap counts** where no two paths disagree. -/
theorem Resembles.exists_scan (h : Resembles disk m l) (named : disk.IsNamed)
    (hrelists : disk'.Relists disk) (hlroots : ∀ root ∈ l.roots, disk.CanWalk root)
    (hmroots : ∀ root ∈ m.roots, disk.CanWalk root)
    (hagree : l.Agree disk (disk.visited l.roots)) :
    ∃ store, m.scan disk' = (.ok (), { m with store := store }) ∧ ∀ key, store.get? key =
      (l.store.insertAll ((disk.visited l.roots).filterMap (l.supply? disk))).get? key := by
  have hwalk : ∀ root ∈ m.roots, disk'.CanWalk root := fun root hroot =>
    (hrelists.walkFault?_eq named.nodup root).trans (hmroots root hroot)
  refine ⟨_, scan_of_canWalk hwalk, ?_⟩
  refine Store.get?_insertAll_congr (fun key v v' hv hv' => ?_) (fun e => ?_) h.get?_eq
  · obtain ⟨p, hp, hsupply⟩ := List.mem_filterMap.1 hv
    obtain ⟨q, hq, hsupply'⟩ := List.mem_filterMap.1 hv'
    exact hagree p hp q hq key v v' (supply?_eq_some_iff.1 hsupply)
      (supply?_eq_some_iff.1 hsupply')
  · rw [h.supply?_eq hrelists named.nodup, List.mem_filterMap, List.mem_filterMap]
    refine exists_congr fun p => and_congr_left fun _ => ?_
    rw [(hrelists.visited_perm named.nodup m.roots).mem_iff]
    exact ⟨fun hp => Disk.visited_subset named hmroots hlroots h.covered hp,
      fun hp => Disk.visited_subset named hlroots hmroots h.covers hp⟩

/-- **What a scan finds.**  If every root leads to something, and not to a directory that cannot be
entered, a scan succeeds.  Of the paths that it comes to, the last one that counts for a key decides
what is held under that key, and a key for which none counts keeps what it had.  So nothing is
removed, no path that does not count has any say, and another scan changes nothing.  If no two paths
that count for one key lead to different contents, the same is found whatever order directories are
listed in, in whatever order and however often the roots are named, and whether or not some of them
lie within others.  Otherwise the scan fails with the first root at which it cannot go on, and has
done what a scan of the roots before it does.  If that root is a link to a directory that cannot be
entered, its own path has been loaded too, which changes something only if it carries the mark of a
staged copy. -/
theorem scan_spec (named : disk.IsNamed) (l : Loader) :
    ((∀ root ∈ l.roots, disk.CanWalk root) →
      ∃ store, l.scan disk = (.ok (), { l with store := store }) ∧
        l.Holds disk (disk.visited l.roots) store ∧
        (∀ key, l.store.contains key → store.contains key) ∧
        (∃ again, scan disk { l with store := store } = (.ok (), { l with store := again }) ∧
          ∀ key, again.get? key = store.get? key) ∧
        (l.Agree disk (disk.visited l.roots) → ∀ disk', disk'.Relists disk →
          (∀ m : Loader, Resembles disk m l → (∀ root ∈ m.roots, disk.CanWalk root) →
            ∃ other, m.scan disk' = (.ok (), { m with store := other }) ∧
              ∀ key, other.get? key = store.get? key) ∧
          (∀ roots : List Path, (∀ root, root ∈ roots ↔ root ∈ l.roots) →
            l.resolver.roots = l.roots →
            ∃ other, (l.withRoots roots).scan disk' =
                (.ok (), { l.withRoots roots with store := other }) ∧
              ∀ key, other.get? key = store.get? key))) ∧
    ((∃ root ∈ l.roots, ¬ disk.CanWalk root) →
      ∃ before root after fault done store, l.roots = before ++ root :: after ∧
        (∀ r ∈ before, disk.CanWalk r) ∧ disk.walkFault? root = some fault ∧
        l.scan disk = (.error (.initialScan root fault), { l with store := store }) ∧
        l.scanRoots disk before = (.ok (), { l with store := done }) ∧
        l.Holds disk (disk.visited before) done ∧
        (¬ disk.IsClosedLink root → store = done) ∧
        (disk.IsClosedLink root →
          { l with store := store } = apply disk { l with store := done } root .create) ∧
        (l.marks root = false → store = done)) := by
  constructor
  · intro hwalk
    -- What is loaded does not depend on the store.
    have hagain : ∀ store : Store, scan disk { l with store := store } = (.ok (), { l with
        store := store.insertAll ((disk.visited l.roots).filterMap (l.supply? disk)) }) :=
      fun store => scan_of_canWalk hwalk
    refine ⟨_, hagain l.store, holds_insertAll disk l _, fun key hkey => ?_,
      ⟨_, hagain _, fun key => ?_⟩, fun hagree disk' hrelists =>
        ⟨fun m hm hroots => hm.exists_scan named hrelists hwalk hroots hagree,
          fun roots hroots hresolver => ?_⟩⟩
    · rw [Store.contains] at hkey ⊢
      rw [Store.get?_insertAll, Option.isSome_or, hkey, Bool.or_true]
    · rw [Store.get?_insertAll, Store.get?_insertAll, ← Option.or_assoc, Option.or_self]
    · exact (resembles_withRoots hroots hresolver).exists_scan named hrelists hwalk
        (fun root hroot => hwalk root ((hroots root).1 hroot)) hagree
  · exact exists_of_not_canWalk

/-- A directory with a file, and in it a directory with a file of its own and one that cannot be
entered; next to it a file and a directory under its marked name. -/
def guardedFiles : Disk :=
  ⟨[([[119]], .dir), ([[119], [102]], .file [120]), ([[119], [100]], .dir),
    ([[119], [100], [103]], .file [121]), ([[119], [115]], .closed .accessDenied),
    ([[119], [115], [104]], .file [122]), ([[118, 126]], .dir), ([[118]], .file [123])], []⟩

/-- The directory under the marked name has given way to a link to the one that cannot be
entered. -/
def replacedRoot : Disk :=
  ⟨[([[119]], .dir), ([[119], [102]], .file [120]), ([[119], [100]], .dir),
    ([[119], [100], [103]], .file [121]), ([[119], [115]], .closed .accessDenied),
    ([[119], [115], [104]], .file [122]), ([[118, 126]], .link [47, 119, 47, 115]),
    ([[118]], .file [123])], []⟩

/-- A scan of the outer directory finds what a scan of both finds, whatever the order, and passes
over the one that cannot be entered.  At a link to that one a scan stops, after what the link itself
stands for. -/
theorem scan_spec_guarded : ∃ l m store,
    Loader.new guardedFiles (.usual [⟨[47, 119]⟩]) = .ok l ∧
    Loader.new guardedFiles (.usual [⟨[47, 119]⟩, ⟨[47, 118, 126]⟩]) = .ok m ∧
    l.scan guardedFiles = (.ok (), { l with store := store }) ∧
    (∀ disk', disk'.Relists guardedFiles →
      ∃ other, (l.withRoots [⟨[47, 119, 47, 100]⟩, ⟨[47, 119]⟩]).scan disk' =
          (.ok (), { l.withRoots [⟨[47, 119, 47, 100]⟩, ⟨[47, 119]⟩] with store := other }) ∧
        ∀ key, other.get? key = store.get? key) ∧
    ∃ done failed, m.scanRoots replacedRoot [⟨[47, 119]⟩] = (.ok (), { m with store := done }) ∧
      m.scan replacedRoot =
        (.error (.initialScan ⟨[47, 118, 126]⟩ .accessDenied), { m with store := failed }) ∧
      { m with store := failed } =
        apply replacedRoot { m with store := done } ⟨[47, 118, 126]⟩ .create := by
  obtain ⟨l, hnew⟩ : ∃ l, Loader.new guardedFiles (.usual [⟨[47, 119]⟩]) = .ok l := ⟨_, rfl⟩
  obtain ⟨m, hnew'⟩ : ∃ m, Loader.new guardedFiles
      (.usual [⟨[47, 119]⟩, ⟨[47, 118, 126]⟩]) = .ok m := ⟨_, rfl⟩
  have hroots : l.roots = [⟨[47, 119]⟩] := by
    cases hnew
    rfl
  have hroots' : m.roots = [⟨[47, 119]⟩, ⟨[47, 118, 126]⟩] := by
    cases hnew'
    rfl
  have hwalk : ∀ root ∈ l.roots, guardedFiles.CanWalk root := by
    rw [hroots]
    decide
  have hnot : ∃ root ∈ m.roots, ¬ replacedRoot.CanWalk root := by
    rw [hroots']
    exact ⟨⟨[47, 118, 126]⟩, by simp, by decide⟩
  obtain ⟨store, hscan, -, -, -, hagree⟩ := (scan_spec (by decide) l).1 hwalk
  refine ⟨l, m, store, hnew, hnew', hscan, fun disk' hrelists => ?_, ?_⟩
  · have hinner : ∀ root ∈ [Path.mk [47, 119, 47, 100], ⟨[47, 119]⟩],
        guardedFiles.CanWalk root := by decide
    refine (hagree ?_ disk' hrelists).1 _ (resembles_of_covered ?_ ?_ ?_) hinner
    · cases hnew
      decide
    · cases hnew
      decide
    · rw [hroots]
      refine List.forall_mem_cons.2 ⟨.inr ⟨?_, ?_⟩, List.forall_mem_singleton.2 (.inl (by simp))⟩
      · intro target hlink
        cases hlink
      · exact ⟨⟨[47, 119]⟩, by simp, _, rfl, ⟨⟨[47, 119, 47, 100]⟩, true⟩, by decide, rfl⟩
    · rw [hroots]
      exact List.forall_mem_singleton.2 (.inl (by simp))
  · have named : replacedRoot.IsNamed := by decide
    obtain ⟨before, root, after, fault, done, failed, hsplit, hbefore, hfault, hfailed, hdone, -, -,
      hlink, -⟩ := (scan_spec named m).2 hnot
    -- The scan stops at the second root.
    obtain ⟨rfl, rfl⟩ : before = [⟨[47, 119]⟩] ∧ root = ⟨[47, 118, 126]⟩ := by
      rw [hroots'] at hsplit
      rcases before with _ | ⟨first, _ | ⟨second, rest⟩⟩
      · cases hsplit
        cases hfault
      · cases hsplit
        exact ⟨rfl, rfl⟩
      · have hlength := congrArg List.length hsplit
        simp at hlength
    cases hfault
    exact ⟨done, failed, hdone, hfailed, hlink ⟨⟨_, rfl⟩, _, rfl⟩⟩

/-- A root that has become a link to a file that cannot be read. -/
def sealedRoot : Disk :=
  ⟨[([[109]], .sealed .inputOutput), ([[119]], .link [47, 109])], []⟩

/-- **What might be expected of a scan and does not hold.**  A root that is no directory is a file
like any other, and the scan succeeds although it cannot be read.  Of a root that has become a link
to a directory that cannot be entered, what it stands for is loaded before the scan stops there.
And where keys are counted from the nearest root, a further root gives what lies below it other
keys, although no two paths disagree. -/
theorem scan_exceptions :
    (∃ l, Loader.new guardedFiles (.usual [⟨[47, 119]⟩]) = .ok l ∧ l.roots = [⟨[47, 119]⟩] ∧
      sealedRoot.read ⟨[47, 119]⟩ = .error .inputOutput ∧ l.scan sealedRoot = (.ok (), l)) ∧
    (∃ l, Loader.new guardedFiles (.usual [⟨[47, 118, 126]⟩]) = .ok l ∧
      l.roots = [⟨[47, 118, 126]⟩] ∧
      (l.scan replacedRoot).1 = .error (.initialScan ⟨[47, 118, 126]⟩ .accessDenied) ∧
      (l.scanRoots replacedRoot []).2.store.get? ['/', 'v'] = none ∧
      (l.scan replacedRoot).2.store.get? ['/', 'v'] = some [123]) ∧
    ∃ l m, Loader.new guardedFiles { LoaderConfig.usual [⟨[47, 119]⟩] with
        strategy := .pathRelativeToRoot } = .ok l ∧
      Loader.new guardedFiles { LoaderConfig.usual [⟨[47, 119]⟩, ⟨[47, 119, 47, 100]⟩] with
        strategy := .pathRelativeToRoot } = .ok m ∧
      (l.scan guardedFiles).1 = .ok () ∧ (m.scan guardedFiles).1 = .ok () ∧
      l.Agree guardedFiles (guardedFiles.visited l.roots) ∧
      m.Agree guardedFiles (guardedFiles.visited m.roots) ∧
      (l.scan guardedFiles).2.store.get? ['/', 'd', '/', 'g'] = some [121] ∧
      (m.scan guardedFiles).2.store.get? ['/', 'd', '/', 'g'] = none := by
  refine ⟨⟨_, rfl, rfl, rfl, rfl⟩, ⟨_, rfl, rfl, rfl, rfl, rfl⟩, _, _, rfl, rfl, rfl, rfl, ?_, ?_,
    rfl, rfl⟩
  · decide
  · decide

end Loader

end CertRotation
