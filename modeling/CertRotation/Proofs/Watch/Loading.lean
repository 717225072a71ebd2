import CertRotation.Proofs.Disk.Links
import CertRotation.Proofs.Watch.Mark

/-!
# What loading does to the store

A loader reads at most one file for a path (`Loader.supply?`), and its content replaces what the
store held under its key.  So a scan is a list of insertions, and the last insertion for a key is
the one that counts.

* `Loader.apply_load`, `Loader.scan_eq` — loading one path, and all paths that a walk comes to;
* `Loader.fst_scanRoots` — whether a scan succeeds;
* `Store.get?_insertAll` — the last write wins;
* `Loader.exists_of_startWatching` — what a loader is like once it follows changes;
* `Loader.notified_eq` — what a report about one path that is no directory comes to.
-/

set_option autoImplicit false

namespace CertRotation

/-- Where a key never comes with two values, looking it up is finding it. -/
theorem lookup_eq_some_iff_mem {α β : Type} [BEq α] [LawfulBEq α] {entries : List (α × β)} {key : α}
    (h : ∀ v v', (key, v) ∈ entries → (key, v') ∈ entries → v = v') {value : β} :
    entries.lookup key = some value ↔ (key, value) ∈ entries := by
  constructor
  · intro hlookup
    obtain ⟨front, rest, rfl, -⟩ := List.lookup_eq_some_iff.1 hlookup
    simp
  · intro hmem
    obtain ⟨other, hother⟩ := Option.isSome_iff_exists.1
      (List.lookup_isSome_iff.2 ⟨_, hmem, beq_self_eq_true key⟩)
    obtain ⟨front, rest, hentries, -⟩ := List.lookup_eq_some_iff.1 hother
    rw [hother, h other value (by rw [hentries]; simp) hmem]

/-- Looking up from the end of a list finds what comes last. -/
theorem lookup_reverse_filterMap_eq_some_iff {α κ β : Type} [BEq κ] [LawfulBEq κ]
    {f : α → Option (κ × β)} {items : List α} {key : κ} {value : β} :
    (items.filterMap f).reverse.lookup key = some value ↔
      ∃ front item rest, items = front ++ item :: rest ∧ f item = some (key, value) ∧
        ∀ later ∈ rest, ∀ v, f later ≠ some (key, v) := by
  rw [List.lookup_eq_some_iff]
  constructor
  · rintro ⟨after, before, hitems, hafter⟩
    rw [List.reverse_eq_iff, List.reverse_append, List.reverse_cons, List.append_assoc,
      List.singleton_append, List.filterMap_eq_append_iff] at hitems
    obtain ⟨front, tail, rfl, -, htail⟩ := hitems
    obtain ⟨skipped, item, rest, rfl, -, hitem, hrest⟩ := List.filterMap_eq_cons_iff.1 htail
    refine ⟨front ++ skipped, item, rest, by simp, hitem, fun later hlater v hv => ?_⟩
    have hmem : (key, v) ∈ after := by
      rw [← List.mem_reverse, ← hrest]
      exact List.mem_filterMap.2 ⟨later, hlater, hv⟩
    exact bne_iff_ne.1 (hafter _ hmem) rfl
  · rintro ⟨front, item, rest, rfl, hitem, hrest⟩
    refine ⟨(rest.filterMap f).reverse, (front.filterMap f).reverse, ?_, fun e he => ?_⟩
    · rw [List.filterMap_append, List.filterMap_cons, hitem]
      simp
    · obtain ⟨later, hlater, he⟩ := List.mem_filterMap.1 (List.mem_reverse.1 he)
      refine bne_iff_ne.2 fun hkey => hrest later hlater e.2 ?_
      rw [he, hkey]

namespace Store

/-- The store after some insertions. -/
def insertAll (store : Store) (entries : List (Key × Bytes)) : Store :=
  entries.foldl (fun store e => store.insert e.1 e.2) store

theorem insertAll_append (store : Store) (front back : List (Key × Bytes)) :
    store.insertAll (front ++ back) = (store.insertAll front).insertAll back :=
  List.foldl_append

/-- **The last write wins.** -/
theorem get?_insertAll (store : Store) (entries : List (Key × Bytes)) (key : Key) :
    (store.insertAll entries).get? key = (entries.reverse.lookup key).or (store.get? key) := by
  induction entries generalizing store with
  | nil => rfl
  | cons e rest ih =>
    obtain ⟨other, value⟩ := e
    have hrest : (store.insertAll ((other, value) :: rest)).get? key =
        ((store.insert other value).insertAll rest).get? key := rfl
    rw [hrest, ih, List.reverse_cons, List.lookup_append, get?_insert, Option.or_assoc]
    congr 1
    by_cases hk : key = other
    · simp [hk]
    · have hne : (key == other) = false := beq_eq_false_iff_ne.2 hk
      simp [hk, hne, List.lookup_cons]

end Store

/-- What there is to load at a path: the content of its file, unless that is empty or cannot be
read. -/
def Disk.content? (disk : Disk) (p : Path) : Option Bytes :=
  match disk.read p with
  | .ok (b :: bs) => some (b :: bs)
  | _ => none

theorem Disk.content?_eq_some {disk : Disk} {p : Path} {content : Bytes} :
    disk.content? p = some content ↔ disk.read p = .ok content ∧ content ≠ [] := by
  rw [content?]
  rcases disk.read p with fault | ⟨_ | ⟨b, bs⟩⟩
  · simp
  · simp
  · constructor
    · rintro ⟨⟩
      simp
    · rintro ⟨⟨⟩, -⟩
      rfl

namespace Loader

/-! ## Loading -/

/-- The key and the content that a path supplies: what there is to load where its name leads without
a mark. -/
def supply? (disk : Disk) (l : Loader) (p : Path) : Option (Key × Bytes) :=
  (l.resolver.key? p).bind fun key =>
    let source := (l.staged? p key).getD (p, key)
    (disk.content? source.1).map fun content => (source.2, content)

variable {disk : Disk} {l : Loader}

theorem load_eq (p : Path) (key : Key) :
    l.load disk p key = { l with
      store := l.store.insertAll
        ((disk.content? p).map fun content => (key, content)).toList } := by
  rw [load, Disk.content?]
  cases disk.read p with
  | error fault => rfl
  | ok content => cases content <;> rfl

/-- **A change that loads** puts what its path supplies into the store. -/
theorem apply_load {op : Ops} (hop : op.meets (Ops.remove.union .rename) = false) (p : Path) :
    l.apply disk p op = { l with store := l.store.insertAll (l.supply? disk p).toList } := by
  rw [apply, supply?]
  cases l.resolver.key? p with
  | none => rfl
  | some key =>
    simp only [hop, Bool.false_eq_true, if_false, Option.bind_some]
    cases l.staged? p key with
    | none => exact load_eq p key
    | some source => exact load_eq source.1 source.2

/-- A change can only change the store. -/
theorem exists_handle (disk : Disk) (l : Loader) (change : Change) :
    ∃ store, l.handle disk change = { l with store := store } := by
  rw [handle]
  split
  · rw [apply]
    split
    · exact ⟨l.store, rfl⟩
    split
    · split
      · exact ⟨l.store, rfl⟩
      · exact ⟨_, rfl⟩
    · split
      · exact ⟨_, load_eq _ _⟩
      · exact ⟨_, load_eq _ _⟩
  · exact ⟨l.store, rfl⟩

/-- What supplies a store does not depend on the store. -/
theorem supply?_store (store : Store) (p : Path) :
    ({ l with store := store } : Loader).supply? disk p = l.supply? disk p := rfl

/-! ## Scanning -/

/-- Everything that a scan of some visits puts into the store, in order. -/
def supplies (disk : Disk) (l : Loader) (visits : List Visit) : List (Key × Bytes) :=
  (visits.filter fun v => !v.isDir).filterMap fun v => l.supply? disk v.path

theorem loadVisits_eq (visits : List Visit) :
    l.loadVisits disk visits = { l with store := l.store.insertAll (l.supplies disk visits) } := by
  rw [loadVisits, supplies]
  induction visits.filter fun v => !v.isDir generalizing l with
  | nil => rfl
  | cons v rest ih =>
    rw [List.foldl_cons, ih, apply_load (by decide)]
    simp only [supply?_store, Store.insertAll]
    rw [← List.foldl_append]
    cases h : l.supply? disk v.path <;> simp [h]

/-- **A scan of one root.** -/
theorem scan_eq {root : Path} (hroots : l.roots = [root]) :
    l.scan disk =
      match disk.walk root with
      | .error fault => (.error (.initialScan root fault), l)
      | .ok w =>
        (w.fault?.elim (.ok ()) fun fault => .error (.initialScan root fault),
          { l with store := l.store.insertAll (l.supplies disk w.visits) }) := by
  rw [scan, hroots, scanRoots]
  cases disk.walk root with
  | error fault => rfl
  | ok w =>
    dsimp only
    rw [loadVisits_eq, ← hroots]
    cases w.fault? <;> rfl

/-- **Whether a scan of some roots succeeds** does not depend on the loader. -/
theorem fst_scanRoots (disk : Disk) (l : Loader) (roots : List Path) :
    (scanRoots disk l roots).1 =
      match disk.stop? roots with
      | none => .ok ()
      | some (root, fault) => .error (.initialScan root fault) := by
  induction roots generalizing l with
  | nil => rfl
  | cons root roots ih =>
    rw [scanRoots, Disk.stop?, List.findSome?_cons]
    rcases disk.walk_cases root with ⟨fault, hwalk, hfault⟩ | ⟨w, hwalk, hfault⟩
    · rw [hwalk, hfault]
      rfl
    · rw [hwalk, hfault]
      dsimp only
      cases w.fault? with
      | some fault => rfl
      | none => exact ih _

theorem fst_scan_eq_ok : (l.scan disk).1 = .ok () ↔ ∀ root ∈ l.roots, disk.CanWalk root := by
  rw [scan, fst_scanRoots, ← Disk.stop?_eq_none]
  cases disk.stop? l.roots <;> simp

end Loader

/-! ## Making a loader -/

theorem Disk.length_le_of_canonical {disk : Disk} {p q : Path} (h : disk.canonical p = .ok q) :
    q.bytes.length ≤ maxPath := by
  rw [canonical, bind_eq_ok] at h
  obtain ⟨place, -, h⟩ := h
  dsimp only at h
  split at h
  · cases h
  · cases h
    omega

/-- A new loader for one root that knows staged copies by the usual mark. -/
theorem Loader.of_new {disk : Disk} {c : LoaderConfig} {l : Loader} {p root : Path}
    (hpaths : c.paths = [p]) (hmarker : c.marker = some LoaderConfig.usualMarker)
    (hroot : disk.canonical p = .ok root) (h : Loader.new disk c = .ok l) :
    l.roots = [root] ∧ l.resolver.strategy = c.strategy ∧ l.marker = some Pattern.finalTilde ∧
      l.ops = c.ops ∧ c.storage = some l.store ∧ l.isWatching = false := by
  have hresolve : resolveAll disk c.paths = .ok [root] := by
    simp [hpaths, resolveAll, resolvePath, hroot, pure, Except.pure, bind, Except.bind]
  have hread : readMarker c.marker = .ok (some Pattern.finalTilde) := by
    rw [hmarker, readMarker]
    simp only [Pattern.parse?_usualMarker]
  rw [Loader.new, if_neg (by simp [hpaths]), hresolve, bind_eq_ok] at h
  obtain ⟨roots, hroots, h⟩ := h
  cases hroots
  split at h
  · cases h
  split at h
  · cases h
  · rename_i store hstore
    rw [hread] at h
    cases h
    exact ⟨rfl, rfl, rfl, rfl, hstore, rfl⟩

/-! ## Following changes -/

namespace PathWatcher

variable {disk : Disk} {w w' : PathWatcher}

theorem exists_of_addPath {p resolved : Path} (h : w.addPath disk p = .ok (resolved, w')) :
    ∃ roots watched, w' = { w with roots := roots, watched := watched } := by
  rw [addPath] at h
  split at h
  · cases h
  rw [bind_eq_ok] at h
  obtain ⟨r, -, h⟩ := h
  split at h <;> cases h <;> exact ⟨_, _, rfl⟩

/-- Adding roots changes nothing but the paths of the watcher. -/
theorem exists_of_addPaths {ps resolved : List Path} (h : addPaths disk w ps = .ok (resolved, w')) :
    ∃ roots watched, w' = { w with roots := roots, watched := watched } := by
  induction ps generalizing w resolved with
  | nil =>
    cases h
    exact ⟨_, _, rfl⟩
  | cons p ps ih =>
    rw [addPaths, bind_eq_ok] at h
    obtain ⟨⟨q, middle⟩, hadd, h⟩ := h
    rw [bind_eq_ok] at h
    obtain ⟨⟨rest, last⟩, hrest, h⟩ := h
    cases h
    obtain ⟨_, _, rfl⟩ := exists_of_addPath hadd
    obtain ⟨roots, watched, rfl⟩ := ih hrest
    exact ⟨roots, watched, rfl⟩

theorem addPaths_ok {ps resolved : List Path} (h : addPaths disk w ps = .ok (resolved, w')) :
    w'.onChange = w.onChange ∧ w'.running = w.running := by
  obtain ⟨roots, watched, rfl⟩ := exists_of_addPaths h
  exact ⟨rfl, rfl⟩

theorem exists_close_eq (w : PathWatcher) :
    ∃ watched, w.close = { w with running := false, watched := watched } := by
  rw [close]
  split
  · exact ⟨_, rfl⟩
  · rename_i hrun
    rw [Bool.not_eq_true] at hrun
    exact ⟨w.watched, by rw [← hrun]⟩

/-- **A watcher that has started** runs, and nothing has changed but the watched paths. -/
theorem exists_of_start {runtime : Bool} {effects : List WatchEffect}
    (h : w.start disk runtime = (.ok (), w', effects)) :
    ∃ watched, w' = { w with running := true, watched := watched } := by
  obtain ⟨closed, hclose⟩ := w.exists_close_eq
  rw [start] at h
  split at h
  · cases h
  split at h
  · cases h
  dsimp only at h
  split at h
  · cases h
  · cases h
    exact ⟨_, by rw [hclose]⟩

theorem start_ok {runtime : Bool} {effects : List WatchEffect}
    (h : w.start disk runtime = (.ok (), w', effects)) :
    w'.running = true ∧ w'.onChange = w.onChange := by
  obtain ⟨watched, rfl⟩ := exists_of_start h
  exact ⟨rfl, rfl⟩

theorem handle_eq {callback : Callback Change} (hcall : w.onChange = some callback)
    {change : Change} (hp : disk.isDir change.path = false) :
    w.handle disk change = (w, [.change change (callback change)]) := by
  rw [handle, if_neg (by simp [hp]), hcall]

/-- **A report about a path that is no directory** is handed on as it is. -/
theorem notified_eq {callback : Callback Change} (hrun : w.running = true)
    (hcall : w.onChange = some callback) {kind : NotificationKind} {p : Path}
    (hp : disk.isDir p = false) :
    w.notified disk ⟨kind, [p]⟩ =
      (w, ((Notification.op? disk kind p).map fun op =>
        WatchEffect.change ⟨p, op⟩ (callback ⟨p, op⟩)).toList) := by
  have hchanges : Notification.changes disk ⟨kind, [p]⟩ =
      ((Notification.op? disk kind p).map fun op => Change.mk p op).toList := by
    rw [Notification.changes]
    cases h : Notification.op? disk kind p <;> simp [h]
  rw [notified, if_pos hrun, dispatch, hchanges]
  cases Notification.op? disk kind p with
  | none => rfl
  | some op =>
    have hone : w.handle disk ⟨p, op⟩ = (w, [.change ⟨p, op⟩ (callback ⟨p, op⟩)]) :=
      handle_eq hcall hp
    simp [handleAll, hone]

end PathWatcher

namespace Loader

variable {disk : Disk} {l l' : Loader}

/-- The loader follows changes: it has a running watcher that hands them on. -/
def IsFollowing (l : Loader) : Prop :=
  ∃ w callback, l.watcher = some w ∧ w.running = true ∧ w.onChange = some callback

/-- A loader that has started has scanned its roots, and its watcher runs. -/
theorem startWatching_ok {runtime : Bool} (hl : l.isWatching = false)
    (h : l.startWatching disk runtime = (.ok (), l')) :
    ∃ scanned w, l.scan disk = (.ok (), scanned) ∧ l' = { scanned with watcher := some w } ∧
      ∃ roots watched,
        w = { scanned.newWatcher with roots := roots, watched := watched, running := true } := by
  rw [startWatching, if_neg (by simp [hl])] at h
  split at h
  · cases h
  rename_i scanned hscan
  split at h
  · cases h
  rename_i resolved w hadd
  split at h
  · cases h
  rename_i w' effects hstart
  cases h
  obtain ⟨roots, added, rfl⟩ := PathWatcher.exists_of_addPaths hadd
  obtain ⟨watched, rfl⟩ := PathWatcher.exists_of_start hstart
  exact ⟨scanned, _, hscan, rfl, roots, watched, rfl⟩

/-- **A loader that has started** has scanned its roots and follows changes. -/
theorem exists_of_startWatching {runtime : Bool} (hl : l.isWatching = false)
    (h : l.startWatching disk runtime = (.ok (), l')) :
    l'.IsFollowing ∧ ∃ scanned w, l.scan disk = (.ok (), scanned) ∧
      l' = { scanned with watcher := some w } := by
  obtain ⟨scanned, w, hscan, rfl, roots, watched, rfl⟩ := startWatching_ok hl h
  exact ⟨⟨_, fun _ => .returned, rfl, rfl, rfl⟩, scanned, _, hscan, rfl⟩

/-- **What a report about a path that is no directory comes to.** -/
theorem notified_eq (hl : l.IsFollowing) {kind : NotificationKind} {p : Path}
    (hp : disk.isDir p = false) :
    l.notified disk ⟨kind, [p]⟩ =
      (Notification.op? disk kind p).elim l fun op => l.handle disk ⟨p, op⟩ := by
  obtain ⟨w, callback, hw, hrun, hcall⟩ := hl
  rw [notified, hw]
  simp only [PathWatcher.notified_eq hrun hcall hp]
  obtain ⟨roots, resolver, store, ops, marker, subfolders, watcher⟩ := l
  cases hw
  cases Notification.op? disk kind p <;> rfl

end Loader
end CertRotation
