import CertRotation.Proofs.Path.Sorted
import CertRotation.Proofs.Watch.Loading

/-!
# How long an entry lasts

A loader looks at nothing but the path that a report names and the files that a scan comes by.  So
an entry of the store stays as it is until one of them has the key of the entry: nobody else can
load it again or drop it.

* `PathWatcher.handsOn`, `PathWatcher.exists_handleAll_eq` — the changes that a watcher hands on;
* `PathWatcher.exists_absorbAll_eq` — the directories that it watches after it has absorbed some;
* `Loader.scanned`, `Loader.snd_scan` — everything that a scan loads, whether or not it succeeds;
* `Loader.keyFor?`, `Loader.get?_handle_of_ne` — the only key that a change can do something to;
* `Loader.Spares`, `Loader.get?_foldl_act` — what is spared lasts.
-/

set_option autoImplicit false

namespace CertRotation

/-! ## Watched paths -/

namespace PathWatcher

variable {disk : Disk} {w : PathWatcher}

/-- Whether the watcher hands a change on: it keeps directories that appeared to itself, if it
watches subfolders. -/
def handsOn (disk : Disk) (w : PathWatcher) (change : Change) : Bool :=
  w.onChange.isSome && !(w.subfolders && change.op = .create && disk.isDir change.path)

/-- **What is absorbed is watched**, unless the system refuses, and nothing else happens. -/
theorem exists_absorbAll_eq (disk : Disk) (w : PathWatcher) (ps : List Path) :
    ∃ watched effects, absorbAll disk w ps = ({ w with watched := watched }, effects) ∧
      effects.filterMap WatchEffect.change? = [] ∧ (∀ q ∈ w.watched, q ∈ watched) ∧
      ∀ p ∈ ps, watchFailure? disk p = none → watched.any p.same := by
  induction ps generalizing w with
  | nil => exact ⟨w.watched, [], rfl, rfl, fun _ hq => hq, nofun⟩
  | cons p ps ih =>
    rw [absorbAll]
    by_cases hthere : w.watched.any p.same
    · obtain ⟨watched, effects, heq, hnone, hkept, hall⟩ := ih w
      rw [if_pos hthere, heq]
      refine ⟨watched, effects, rfl, hnone, hkept, List.forall_mem_cons.2 ⟨fun _ => ?_, hall⟩⟩
      obtain ⟨q, hq, hsame⟩ := List.any_eq_true.1 hthere
      exact List.any_eq_true.2 ⟨q, hkept q hq, hsame⟩
    · rw [if_neg hthere]
      cases hfailure : watchFailure? disk p with
      | none =>
        obtain ⟨watched, effects, heq, hnone, hkept, hall⟩ :=
          ih { w with watched := p.insertSorted w.watched }
        simp only [Option.isNone_none, if_true, heq]
        refine ⟨watched, _, rfl, hnone, fun q hq => hkept q (Path.mem_insertSorted hq),
          List.forall_mem_cons.2 ⟨fun _ => ?_, hall⟩⟩
        obtain ⟨q, hq, hsame⟩ := List.any_eq_true.1 (Path.any_same_insertSorted p w.watched)
        exact List.any_eq_true.2 ⟨q, hkept q hq, hsame⟩
      | some failure =>
        obtain ⟨watched, effects, heq, hnone, hkept, hall⟩ := ih w
        simp only [Option.isNone_some, Bool.false_eq_true, if_false, heq]
        exact ⟨watched, _, rfl, hnone, hkept, List.forall_mem_cons.2
          ⟨fun hnofailure => absurd (hfailure.symm.trans hnofailure) (by simp), hall⟩⟩

theorem exists_handle_eq (disk : Disk) (w : PathWatcher) (change : Change) :
    ∃ watched effects, w.handle disk change = ({ w with watched := watched }, effects) ∧
      effects.filterMap WatchEffect.change? = [change].filter (w.handsOn disk) := by
  rw [handle, List.filter_singleton, handsOn]
  by_cases habsorb : w.subfolders ∧ change.op = .create ∧ disk.isDir change.path
  · rw [if_pos habsorb, absorb]
    have hkeep : (w.onChange.isSome &&
        !(w.subfolders && change.op = .create && disk.isDir change.path)) = false := by
      simp [habsorb]
    rw [hkeep]
    split
    · obtain ⟨watched, effects, heq, hnone, -, -⟩ :=
        exists_absorbAll_eq disk w (disk.directories change.path true)
      exact ⟨watched, effects, heq, hnone⟩
    · exact ⟨w.watched, [], rfl, rfl⟩
  · rw [if_neg habsorb]
    have hkeep : (w.subfolders && change.op = .create && disk.isDir change.path) = false := by
      simpa [and_assoc] using habsorb
    rw [hkeep]
    refine ⟨w.watched, _, rfl, ?_⟩
    cases w.onChange with
    | none => rfl
    | some callback => rfl

/-- **The changes that a watcher hands on** are those of a report, in their order, less the
directories that it absorbs. -/
theorem exists_handleAll_eq (disk : Disk) (w : PathWatcher) (changes : List Change) :
    ∃ watched effects, w.handleAll disk changes = ({ w with watched := watched }, effects) ∧
      effects.filterMap WatchEffect.change? = changes.filter (w.handsOn disk) := by
  induction changes generalizing w with
  | nil => exact ⟨w.watched, [], rfl, rfl⟩
  | cons change rest ih =>
    obtain ⟨middle, first, hfirst, hhand⟩ := w.exists_handle_eq disk change
    obtain ⟨watched, effects, hrest, hall⟩ := ih { w with watched := middle }
    refine ⟨watched, first ++ effects, ?_, ?_⟩
    · rw [handleAll, hfirst]
      simp only [hrest]
    · rw [List.filterMap_append, hhand, hall]
      exact (List.filter_append [change] rest).symm

end PathWatcher

namespace Loader

variable {disk : Disk} {l : Loader} {key : Key}

/-! ## What a loader can touch -/

/-- The only key that a change at `p` can do something to: the key of `p`, or the unmarked one if
`p` is a staged copy. -/
def keyFor? (l : Loader) (p : Path) : Option Key :=
  (l.resolver.key? p).map fun key => ((l.staged? p key).map Prod.snd).getD key

theorem keyFor?_of_supply? {p : Path} {content : Bytes}
    (h : l.supply? disk p = some (key, content)) : l.keyFor? p = some key := by
  rw [supply?, Option.bind_eq_some_iff] at h
  obtain ⟨own, hown, h⟩ := h
  obtain ⟨data, -, hdata⟩ := Option.map_eq_some_iff.1 h
  obtain ⟨rfl, -⟩ := Prod.mk.inj hdata
  rw [keyFor?, hown, Option.map_some]
  cases l.staged? p own with
  | none => rfl
  | some source => rfl

/-- **A change that drops** drops the key of its path, unless that is a staged copy. -/
theorem get?_apply_of_drop {op : Ops} (hop : op.meets (Ops.remove.union .rename)) (p : Path)
    (key : Key) :
    (l.apply disk p op).store.get? key =
      if l.resolver.key? p = some key ∧ l.staged? p key = none then none else l.store.get? key := by
  rw [apply]
  cases hown : l.resolver.key? p with
  | none =>
    rw [if_neg]
    rintro ⟨hsome, -⟩
    cases hsome
  | some own =>
    simp only [hop, if_true, Option.some.injEq]
    cases hstaged : l.staged? p own with
    | some source =>
      rw [if_neg]
      rintro ⟨rfl, hnone⟩
      rw [hstaged] at hnone
      cases hnone
    | none =>
      dsimp only
      rw [Store.get?_erase]
      refine if_congr ⟨?_, ?_⟩ rfl rfl
      · rintro rfl
        exact ⟨rfl, hstaged⟩
      · rintro ⟨rfl, -⟩
        rfl

theorem get?_handle_of_drop {change : Change} (hany : change.isAny l.ops)
    (hop : change.op.meets (Ops.remove.union .rename)) (key : Key) :
    (l.handle disk change).store.get? key =
      if l.resolver.key? change.path = some key ∧ l.staged? change.path key = none then none
      else l.store.get? key := by
  rw [handle, if_pos hany]
  exact get?_apply_of_drop hop change.path key

/-- **A change can only touch the key of its path.** -/
theorem get?_handle_of_ne {change : Change} (h : l.keyFor? change.path ≠ some key) :
    (l.handle disk change).store.get? key = l.store.get? key := by
  rw [handle]
  split
  · by_cases hop : change.op.meets (Ops.remove.union .rename)
    · rw [get?_apply_of_drop hop, if_neg]
      rintro ⟨hown, hstaged⟩
      rw [keyFor?, hown, Option.map_some, hstaged] at h
      exact h rfl
    · rw [apply_load (Bool.not_eq_true _ ▸ hop), Store.get?_insertAll]
      cases hsupply : l.supply? disk change.path with
      | none => rfl
      | some entry =>
        obtain ⟨other, content⟩ := entry
        have hne : (key == other) = false := by
          refine beq_eq_false_iff_ne.2 ?_
          rintro rfl
          exact h (keyFor?_of_supply? hsupply)
        simp [List.lookup_cons, hne]
  · rfl

/-- Everything that a scan of some roots puts into the store: it stops at the first root that cannot
be visited or entered. -/
def scannedIn (disk : Disk) (l : Loader) : List Path → List (Key × Bytes)
  | [] => []
  | root :: roots =>
    match disk.walk root with
    | .error _ => []
    | .ok w => l.supplies disk w.visits ++ if w.fault?.isSome then [] else l.scannedIn disk roots

/-- Everything that a scan puts into the store, in order. -/
def scanned (disk : Disk) (l : Loader) : List (Key × Bytes) := l.scannedIn disk l.roots

theorem scannedIn_congr (store : Store) (watcher : Option PathWatcher) (roots : List Path) :
    scannedIn disk { l with store := store, watcher := watcher } roots =
      l.scannedIn disk roots := by
  induction roots with
  | nil => rfl
  | cons root roots ih =>
    rw [scannedIn, scannedIn, ih]
    rfl

theorem snd_scanRoots (roots : List Path) :
    (scanRoots disk l roots).2 =
      { l with store := l.store.insertAll (l.scannedIn disk roots) } := by
  induction roots generalizing l with
  | nil => rfl
  | cons root roots ih =>
    rw [scanRoots, scannedIn]
    cases disk.walk root with
    | error fault => rfl
    | ok w =>
      dsimp only
      rw [loadVisits_eq]
      cases w.fault? with
      | some fault => simp
      | none => simp [ih, scannedIn_congr _ l.watcher, Store.insertAll_append]

/-- **A scan**, whether or not it succeeds. -/
theorem snd_scan : (l.scan disk).2 = { l with store := l.store.insertAll (l.scanned disk) } :=
  snd_scanRoots l.roots

/-- **What a report comes to** while the watcher runs: the changes that it hands on are handled. -/
theorem exists_notified_eq {w : PathWatcher} (hw : l.watcher = some w) (hrun : w.running = true)
    (report : Notification) :
    ∃ watched, l.notified disk report =
      ((report.changes disk).filter (w.handsOn disk)).foldl (handle disk)
        { l with watcher := some { w with watched := watched } } := by
  obtain ⟨watched, effects, heq, hchanges⟩ := w.exists_handleAll_eq disk (report.changes disk)
  refine ⟨watched, ?_⟩
  rw [notified, hw]
  dsimp only
  rw [PathWatcher.notified, if_pos hrun, PathWatcher.dispatch, heq]
  dsimp only
  rw [hchanges]

/-- Whether or not a watcher runs, a report comes to changes of its paths. -/
theorem exists_notified_eq_foldl (disk : Disk) (l : Loader) (report : Notification) :
    ∃ (watcher : Option PathWatcher) (changes : List Change), l.notified disk report =
        changes.foldl (handle disk) { l with watcher := watcher } ∧
      ∀ change ∈ changes, change.path ∈ report.paths := by
  have hpaths : ∀ change ∈ report.changes disk, change.path ∈ report.paths := by
    intro change hchange
    obtain ⟨p, hp, heq⟩ := List.mem_filterMap.1 hchange
    obtain ⟨op, -, rfl⟩ := Option.map_eq_some_iff.1 heq
    exact hp
  rcases hw : l.watcher with _ | w
  · obtain ⟨roots, resolver, store, ops, marker, subfolders, watcher⟩ := l
    cases hw
    exact ⟨none, [], rfl, nofun⟩
  · cases hrun : w.running with
    | true =>
      obtain ⟨watched, heq⟩ := exists_notified_eq hw hrun report
      exact ⟨_, _, heq, fun change hchange => hpaths change (List.mem_of_mem_filter hchange)⟩
    | false =>
      refine ⟨some w, [], ?_, nofun⟩
      rw [notified, hw]
      simp [PathWatcher.notified, hrun]

/-- Handling some changes can only change the store. -/
theorem exists_foldl_handle (disk : Disk) (l : Loader) (changes : List Change) :
    ∃ store, changes.foldl (handle disk) l = { l with store := store } := by
  induction changes generalizing l with
  | nil => exact ⟨l.store, rfl⟩
  | cons change rest ih =>
    obtain ⟨middle, hmiddle⟩ := l.exists_handle disk change
    obtain ⟨store, hstore⟩ := ih { l with store := middle }
    exact ⟨store, by rw [List.foldl_cons, hmiddle, hstore]⟩

theorem get?_foldl_handle {changes : List Change}
    (h : ∀ change ∈ changes, l.keyFor? change.path ≠ some key) :
    (changes.foldl (handle disk) l).store.get? key = l.store.get? key := by
  induction changes generalizing l with
  | nil => rfl
  | cons change rest ih =>
    obtain ⟨hfirst, hrest⟩ := List.forall_mem_cons.1 h
    obtain ⟨store, hstore⟩ := l.exists_handle disk change
    have hget : (l.handle disk change).store.get? key = l.store.get? key := get?_handle_of_ne hfirst
    rw [hstore] at hget
    have hlast := ih (l := { l with store := store }) hrest
    rw [List.foldl_cons, hstore]
    exact hlast.trans hget

end Loader

/-! ## What lasts -/

/-- Something that may happen to a loader: a scan of the disk as it is, or a report. -/
inductive LoaderAct where
  | scan (disk : Disk)
  | report (disk : Disk) (report : Notification)

namespace Loader

variable {disk : Disk} {l : Loader} {key : Key} {a : LoaderAct}

/-- The loader after an act. -/
def act (l : Loader) : LoaderAct → Loader
  | .scan disk => (l.scan disk).2
  | .report disk report => l.notified disk report

/-- The act does not concern the key: the scan comes by nothing that would be kept under it, and the
report names no path that has it. -/
def Spares (l : Loader) (key : Key) : LoaderAct → Prop
  | .scan disk => ∀ content, (key, content) ∉ l.scanned disk
  | .report _ report => ∀ p ∈ report.paths, l.keyFor? p ≠ some key

/-- An act can only change the store and the watcher. -/
theorem exists_act_eq (l : Loader) (a : LoaderAct) :
    ∃ store watcher, l.act a = { l with store := store, watcher := watcher } := by
  cases a with
  | scan disk => exact ⟨_, l.watcher, snd_scan⟩
  | report disk report =>
    obtain ⟨watcher, changes, heq, -⟩ := exists_notified_eq_foldl disk l report
    obtain ⟨store, hstore⟩ := exists_foldl_handle disk { l with watcher := watcher } changes
    exact ⟨store, watcher, heq.trans hstore⟩

theorem get?_act (h : l.Spares key a) : (l.act a).store.get? key = l.store.get? key := by
  cases a with
  | scan disk =>
    have hnone : (l.scanned disk).reverse.lookup key = none := by
      refine List.lookup_eq_none_iff.2 fun entry hentry => bne_iff_ne.2 ?_
      rintro rfl
      exact h entry.2 (List.mem_reverse.1 hentry)
    rw [act, snd_scan, Store.get?_insertAll, hnone, Option.none_or]
  | report disk report =>
    obtain ⟨watcher, changes, heq, hpaths⟩ := exists_notified_eq_foldl disk l report
    rw [act, heq]
    exact get?_foldl_handle (l := { l with watcher := watcher }) fun change hchange =>
      h change.path (hpaths change hchange)

/-- What spares a key does not depend on the store or on what is watched. -/
theorem spares_congr (store : Store) (watcher : Option PathWatcher) :
    Spares { l with store := store, watcher := watcher } key a ↔ l.Spares key a := by
  cases a with
  | scan disk => rw [Spares, Spares, scanned, scanned, scannedIn_congr]
  | report disk report => exact Iff.rfl

/-- **What is spared lasts.**  However often the disk is scanned and whatever is reported, as long
as no scan comes by a file for a key and no report names a path that has it, its entry stays as it
is. -/
theorem get?_foldl_act {acts : List LoaderAct} (h : ∀ a ∈ acts, l.Spares key a) :
    (acts.foldl act l).store.get? key = l.store.get? key := by
  induction acts generalizing l with
  | nil => rfl
  | cons a rest ih =>
    obtain ⟨hfirst, hrest⟩ := List.forall_mem_cons.1 h
    have hget := get?_act hfirst
    obtain ⟨store, watcher, heq⟩ := l.exists_act_eq a
    rw [heq] at hget
    have hlast := ih fun a ha => (spares_congr store watcher).2 (hrest a ha)
    rw [List.foldl_cons, heq]
    exact hlast.trans hget

end Loader

end CertRotation
