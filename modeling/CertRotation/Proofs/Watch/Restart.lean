import CertRotation.Proofs.Watch.Lifetime

/-!
# Starting a loader again

A loader can be stopped and started again, and its entries stay in between.  Whatever happens to it
comes to a list of edits of its store, each of which loads one key or drops one, and of the edits of
a key the last one counts.  A start only loads.  So a loader that is started again has what a new
one would have, and on top of that whatever it still held: additions are caught up with, while a
file that went away in between is never missed.

* `StoreEdit`, `Store.get?_edited` — edits of a store, and what they leave;
* `LoaderEvent`, `Loader.edits`, `Loader.history` — what events and histories do to the store;
* `Loader.exists_run_eq` — that is all they do, except for the watcher;
* `Loader.exists_startWatching_eq` — what a start does does not depend on the store;
* `Loader.keys_of_restart` — **what is held after a start**.
-/

set_option autoImplicit false

namespace CertRotation

/-! ## Edits of a store -/

/-- Something done to one key of a store. -/
inductive StoreEdit where
  | put (key : Key) (content : Bytes)
  | drop (key : Key)
  deriving DecidableEq

/-- The key that the edit is about. -/
def StoreEdit.key : StoreEdit → Key
  | put key _ => key
  | drop key => key

/-- What the edit leaves under its key. -/
def StoreEdit.content? : StoreEdit → Option Bytes
  | put _ content => some content
  | drop _ => none

namespace Store

/-- The store after an edit. -/
def edit (store : Store) : StoreEdit → Store
  | .put key content => store.insert key content
  | .drop key => store.erase key

/-- The store after some edits. -/
def edited (store : Store) (edits : List StoreEdit) : Store := edits.foldl edit store

theorem edited_append (store : Store) (front back : List StoreEdit) :
    store.edited (front ++ back) = (store.edited front).edited back :=
  List.foldl_append

theorem edited_puts (store : Store) (entries : List (Key × Bytes)) :
    store.edited (entries.map fun e => .put e.1 e.2) = store.insertAll entries :=
  List.foldl_map

theorem get?_edit (store : Store) (e : StoreEdit) (key : Key) :
    (store.edit e).get? key = if key = e.key then e.content? else store.get? key := by
  cases e with
  | put other content => exact get?_insert store other key content
  | drop other => exact get?_erase store other key

/-- **The last edit of a key counts.** -/
theorem get?_edited (store : Store) (edits : List StoreEdit) (key : Key) :
    (store.edited edits).get? key =
      ((edits.reverse.find? fun e => key = e.key).elim (store.get? key) StoreEdit.content?) := by
  induction edits using List.reverseRecOn with
  | nil => rfl
  | append_singleton edits e ih =>
    rw [edited_append, List.reverse_concat, List.find?_cons]
    show ((store.edited edits).edit e).get? key = _
    rw [get?_edit, ih]
    by_cases hkey : key = e.key
    · simp [hkey]
    · simp [hkey]

/-- What an empty store has come to hold was put there, and that was the last that was done to its
key. -/
theorem get?_edited_empty {edits : List StoreEdit} {key : Key} {content : Bytes} :
    (empty.edited edits).get? key = some content ↔
      ∃ before after, edits = before ++ .put key content :: after ∧
        ∀ e ∈ after, e.key ≠ key := by
  rw [get?_edited, get?_empty]
  constructor
  · intro h
    cases hlast : edits.reverse.find? fun e => key = e.key with
    | none =>
      rw [hlast] at h
      cases h
    | some e =>
      rw [hlast] at h
      obtain ⟨hkey, after, before, hedits, hafter⟩ := List.find?_eq_some_iff_append.1 hlast
      have heq : e = .put key content := by
        cases e with
        | put other bytes =>
          rw [of_decide_eq_true hkey, Option.some.inj h]
          rfl
        | drop other => cases h
      refine ⟨before.reverse, after.reverse, ?_, fun other hother hsame => ?_⟩
      · rw [← List.reverse_reverse edits, hedits, heq]
        simp
      · simpa [hsame] using hafter other (List.mem_reverse.1 hother)
  · rintro ⟨before, after, rfl, hafter⟩
    have hlast : (before ++ StoreEdit.put key content :: after).reverse.find?
        (fun e => key = e.key) = some (.put key content) := by
      refine List.find?_eq_some_iff_append.2 ⟨by simp [StoreEdit.key], after.reverse,
        before.reverse, by simp, fun e he => ?_⟩
      simpa using (hafter e (List.mem_reverse.1 he)).symm
    rw [hlast]
    rfl

end Store

/-! ## What happens to a loader -/

/-- Something that happens to a loader, with the disk as it is at that moment. -/
inductive LoaderEvent where
  | start (disk : Disk) (runtime : Bool)
  | stop
  | rescan (disk : Disk)
  | report (disk : Disk) (report : Notification)

namespace Loader

variable {disk : Disk} {l l' : Loader}

/-- The loader after an event. -/
def event (l : Loader) : LoaderEvent → Loader
  | .start disk runtime => (l.startWatching disk runtime).2
  | .stop => l.stopWatching
  | .rescan disk => (l.scan disk).2
  | .report disk report => l.notified disk report

/-- The loader after some events. -/
def run (l : Loader) (events : List LoaderEvent) : Loader := events.foldl event l

/-- What a change does to the store: it drops the key of its path, or loads what its path supplies,
if it is of a kind that the loader handles. -/
def editsOf (disk : Disk) (l : Loader) (change : Change) : List StoreEdit :=
  if change.isAny l.ops then
    if change.op.meets (Ops.remove.union .rename) then
      match l.resolver.key? change.path with
      | none => []
      | some key => if (l.staged? change.path key).isSome then [] else [.drop key]
    else (l.supply? disk change.path).toList.map fun e => .put e.1 e.2
  else []

/-- What a scan does to the store. -/
def scanEdits (disk : Disk) (l : Loader) : List StoreEdit :=
  (l.scanned disk).map fun e => .put e.1 e.2

/-- What an event does to the store: a start that has something to do scans first, and a report is
handled as far as a running watcher hands it on. -/
def edits (l : Loader) : LoaderEvent → List StoreEdit
  | .start disk _ => if l.isWatching then [] else l.scanEdits disk
  | .stop => []
  | .rescan disk => l.scanEdits disk
  | .report disk report =>
    match l.watcher with
    | none => []
    | some w =>
      if w.running then ((report.changes disk).filter (w.handsOn disk)).flatMap (l.editsOf disk)
      else []

/-- All that some events do to the store, in order. -/
def history : Loader → List LoaderEvent → List StoreEdit
  | _, [] => []
  | l, e :: events => l.edits e ++ (l.event e).history events

/-- What edits there are does not depend on the store or on what is watched. -/
theorem scanEdits_congr (store : Store) (watcher : Option PathWatcher) :
    scanEdits disk { l with store := store, watcher := watcher } = l.scanEdits disk := by
  rw [scanEdits, scanEdits, scanned, scanned, scannedIn_congr]

theorem snd_scan_eq (disk : Disk) (l : Loader) :
    (l.scan disk).2 = { l with store := l.store.edited (l.scanEdits disk) } := by
  rw [snd_scan, scanEdits, Store.edited_puts]

theorem handle_eq (disk : Disk) (l : Loader) (change : Change) :
    l.handle disk change = { l with store := l.store.edited (l.editsOf disk change) } := by
  rw [handle, editsOf]
  split
  · split
    · rename_i hop
      rw [apply]
      cases l.resolver.key? change.path with
      | none => rfl
      | some key =>
        simp only [hop, if_true]
        cases l.staged? change.path key with
        | none => rfl
        | some source => rfl
    · rename_i hop
      rw [apply_load (Bool.not_eq_true _ ▸ hop), Store.edited_puts]
  · rfl

theorem foldl_handle_eq (disk : Disk) (l : Loader) (changes : List Change) :
    changes.foldl (handle disk) l =
      { l with store := l.store.edited (changes.flatMap (l.editsOf disk)) } := by
  induction changes generalizing l with
  | nil => rfl
  | cons change rest ih =>
    rw [List.foldl_cons, handle_eq, ih, List.flatMap_cons, Store.edited_append]
    rfl

/-! ## Starting -/

theorem scan_store (store : Store) :
    scan disk { l with store := store } =
      ((l.scan disk).1, { l with store := store.edited (l.scanEdits disk) }) := by
  refine Prod.ext ?_ ?_
  · rw [scan, scan, fst_scanRoots, fst_scanRoots]
  · rw [snd_scan_eq]
    exact congrArg (fun edits => { l with store := store.edited edits })
      (scanEdits_congr store l.watcher)

/-- **What a start comes to**, if there is something to do: the edits of the scan, and a watcher in
the end if everything succeeds.  Whether it does, and what the watcher is like, does not depend on
the store. -/
theorem exists_startWatching_eq (disk : Disk) (runtime : Bool) (hl : l.isWatching = false) :
    ∃ result watcher, (result = .ok () ↔ watcher.isSome) ∧ ∀ store : Store,
      startWatching disk runtime { l with store := store } =
        (result, { l with store := store.edited (l.scanEdits disk), watcher := watcher }) := by
  have hnone : l.watcher = none := by
    rw [isWatching] at hl
    exact Option.not_isSome_iff_eq_none.1 (Bool.eq_false_iff.1 hl)
  have hidle : ∀ store : Store, isWatching { l with store := store } = false := fun _ => hl
  cases hscan : (l.scan disk).1 with
  | error e =>
    refine ⟨.error e, l.watcher, by simp [hnone], fun store => ?_⟩
    simp [startWatching, hidle, scan_store, hscan]
  | ok _ =>
    -- The watcher is made from the settings, so all that decides is the same for every store.
    have hsame : ∀ store : Store, PathWatcher.addPaths disk (newWatcher { l with store := store })
        l.roots = PathWatcher.addPaths disk l.newWatcher l.roots := fun _ => rfl
    rcases hadd : PathWatcher.addPaths disk l.newWatcher l.roots with e | ⟨resolved, w⟩
    · refine ⟨.error e, l.watcher, by simp [hnone], fun store => ?_⟩
      simp [startWatching, hidle, scan_store, hscan, hsame, hadd]
    · rcases hstart : w.start disk runtime with ⟨e | _, w', effects⟩
      · refine ⟨.error e, l.watcher, by simp [hnone], fun store => ?_⟩
        simp [startWatching, hidle, scan_store, hscan, hsame, hadd, hstart]
      · refine ⟨.ok (), some w', by simp, fun store => ?_⟩
        simp [startWatching, hidle, scan_store, hscan, hsame, hadd, hstart]

/-! ## Whole histories -/

/-- **What an event does**: its edits, and possibly something to the watcher. -/
theorem exists_event_eq (l : Loader) (e : LoaderEvent) :
    ∃ watcher, l.event e = { l with store := l.store.edited (l.edits e), watcher := watcher } := by
  cases e with
  | start disk runtime =>
    cases hl : l.isWatching with
    | true =>
      refine ⟨l.watcher, ?_⟩
      rw [event, edits, startWatching, if_pos hl, hl]
      rfl
    | false =>
      obtain ⟨result, watcher, -, hstart⟩ := exists_startWatching_eq disk runtime hl
      refine ⟨watcher, ?_⟩
      rw [event, edits, hl]
      exact congrArg Prod.snd (hstart l.store)
  | stop => exact ⟨none, rfl⟩
  | rescan disk => exact ⟨l.watcher, snd_scan_eq disk l⟩
  | report disk report =>
    rcases hw : l.watcher with _ | w
    · obtain ⟨roots, resolver, store, ops, marker, subfolders, watcher⟩ := l
      cases hw
      exact ⟨none, rfl⟩
    cases hrun : w.running with
    | false =>
      refine ⟨some w, ?_⟩
      rw [event, edits, notified, hw]
      simp [PathWatcher.notified, hrun, Store.edited]
    | true =>
      obtain ⟨watched, heq⟩ : ∃ watched, l.notified disk report =
          ((report.changes disk).filter (w.handsOn disk)).foldl (handle disk)
            { l with watcher := some { w with watched := watched } } :=
        exists_notified_eq hw hrun report
      refine ⟨some { w with watched := watched }, ?_⟩
      rw [event, edits, hw, heq, foldl_handle_eq]
      simp only [hrun, if_true]
      rfl

/-- **What a history does to the store** is the edits of its events in order. -/
theorem exists_run_eq (l : Loader) (events : List LoaderEvent) :
    ∃ watcher, l.run events =
      { l with store := l.store.edited (l.history events), watcher := watcher } := by
  induction events generalizing l with
  | nil => exact ⟨l.watcher, rfl⟩
  | cons e rest ih =>
    obtain ⟨middle, hmiddle⟩ := l.exists_event_eq e
    obtain ⟨watcher, hrest⟩ := ih (l.event e)
    refine ⟨watcher, ?_⟩
    rw [history, Store.edited_append]
    rw [hmiddle] at hrest ⊢
    exact (congrArg (fun l : Loader => l.run rest) hmiddle).trans hrest

/-! ## Starting again -/

/-- A loader is made from its settings and its roots. -/
theorem eq_of_new {disk disk' : Disk} {c : LoaderConfig} (h : new disk c = .ok l)
    (h' : new disk' c = .ok l') (hroots : l'.roots = l.roots) : l' = l := by
  rw [new] at h h'
  split at h
  · cases h
  rename_i hpaths
  rw [if_neg hpaths] at h'
  rw [bind_eq_ok] at h h'
  obtain ⟨roots, -, h⟩ := h
  obtain ⟨roots', -, h'⟩ := h'
  split at h
  · cases h
  rename_i hextension
  rw [if_neg hextension] at h'
  cases hstorage : c.storage with
  | none =>
    rw [hstorage] at h
    cases h
  | some store =>
    rw [hstorage] at h h'
    rw [bind_eq_ok] at h h'
    obtain ⟨marker, hmarker, h⟩ := h
    obtain ⟨marker', hmarker', h'⟩ := h'
    rw [hmarker] at hmarker'
    cases hmarker'
    cases h
    cases h'
    cases hroots
    rfl

theorem of_new_ok {c : LoaderConfig} (h : new disk c = .ok l) :
    c.storage = some l.store ∧ l.isWatching = false := by
  rw [new] at h
  split at h
  · cases h
  rw [bind_eq_ok] at h
  obtain ⟨roots, -, h⟩ := h
  split at h
  · cases h
  split at h
  · cases h
  rename_i store hstorage
  rw [bind_eq_ok] at h
  obtain ⟨marker, -, h⟩ := h
  cases h
  exact ⟨hstorage, rfl⟩

/-- A loader that does not watch is as it was before its history, but for the store. -/
theorem run_withStore {events : List LoaderEvent} (hl : l.isWatching = false)
    (hidle : (l.run events).isWatching = false) : { l.run events with store := l.store } = l := by
  obtain ⟨watcher, hrun⟩ := l.exists_run_eq events
  have hnone : watcher = l.watcher := by
    rw [hrun] at hidle
    rw [isWatching, Option.isSome_eq_false_iff, Option.isNone_iff_eq_none] at hl hidle
    exact hidle.trans hl.symm
  rw [hrun, hnone]

/-- A scan only loads, so what it finds goes before what was held, and nothing that was held is
lost. -/
theorem get?_edited_scanEdits (l : Loader) (disk : Disk) (store : Store) (key : Key) :
    (store.edited (l.scanEdits disk)).get? key =
      ((Store.empty.edited (l.scanEdits disk)).get? key).or (store.get? key) := by
  rw [scanEdits, Store.edited_puts, Store.edited_puts, Store.get?_insertAll, Store.get?_insertAll,
    Store.get?_empty, Option.or_none]

/-- **What is held after a start.**  A loader with a store of its own goes through any history and
is then started.  A new loader with the same settings and the same roots could be started there as
well.  What the new one would hold the old one holds, with the same content; besides that it holds
what it held before, and that is what its history has put into the store and not dropped since.  So
the two have the same keys exactly if the new one would find every key that the old one held. -/
theorem keys_of_restart {c : LoaderConfig} (hstorage : c.storage = some .empty)
    {disk₀ disk₁ disk : Disk} {l fresh l' : Loader} {events : List LoaderEvent} {runtime : Bool}
    (hnew : new disk₀ c = .ok l) (hidle : (l.run events).isWatching = false)
    (hstart : (l.run events).startWatching disk runtime = (.ok (), l'))
    (hfresh : new disk₁ c = .ok fresh) (hroots : fresh.roots = l.roots) :
    ∃ fresh', fresh.startWatching disk runtime = (.ok (), fresh') ∧
      (l'.isWatching ∧ fresh'.isWatching) ∧
      (∀ key, l'.store.get? key =
        (fresh'.store.get? key).or ((l.run events).store.get? key)) ∧
      ((∀ key, l'.store.contains key = fresh'.store.contains key) ↔
        ∀ key, (l.run events).store.contains key → fresh'.store.contains key) ∧
      ∀ key content, (l.run events).store.get? key = some content ↔
        ∃ before after, l.history events = before ++ .put key content :: after ∧
          ∀ e ∈ after, e.key ≠ key := by
  obtain ⟨hstore, hwatching⟩ := of_new_ok hnew
  obtain rfl := eq_of_new hnew hfresh hroots
  have hempty : fresh.store = .empty := Option.some.inj (hstore.symm.trans hstorage)
  -- One start of the loader with its own store, and one of the same loader with an empty store.
  obtain ⟨result, w, hresult, hall⟩ := exists_startWatching_eq disk runtime hidle
  have hold : (fresh.run events).startWatching disk runtime = _ := hall (fresh.run events).store
  rw [hstart] at hold
  obtain ⟨rfl, rfl⟩ := Prod.mk.inj hold
  have hnewer := hall fresh.store
  rw [run_withStore hwatching hidle, hempty] at hnewer
  have hget := get?_edited_scanEdits (fresh.run events) disk (fresh.run events).store
  refine ⟨_, hnewer, ⟨hresult.1 rfl, hresult.1 rfl⟩, hget, ?_, fun key content => ?_⟩
  · simp only [Store.contains, hget, Option.isSome_or]
    refine forall_congr' fun key => ?_
    cases (Store.get? _ key).isSome with
    | true => simp
    | false => simp
  · obtain ⟨watcher, hrun⟩ := fresh.exists_run_eq events
    rw [hrun, hempty]
    exact Store.get?_edited_empty

/-- A directory with a file, with another file in its place, and with none. -/
def oldFile : Disk := ⟨[([[119]], .dir), ([[119], [102]], .file [120])], []⟩

def newFile : Disk := ⟨[([[119]], .dir), ([[119], [103]], .file [121])], []⟩

def noFile : Disk := ⟨[([[119]], .dir)], []⟩

def oneRoot : LoaderConfig := .usual [⟨[47, 119]⟩]

/-- While the loader is stopped one file is deleted and another one appears. -/
theorem keys_of_replaced : ∃ l fresh' l',
    Loader.new oldFile oneRoot = .ok l ∧
      (l.run [.start oldFile true, .stop]).startWatching newFile true = (.ok (), l') ∧
      l.startWatching newFile true = (.ok (), fresh') ∧
      (∀ key, l'.store.get? key = (fresh'.store.get? key).or
        ((l.run [.start oldFile true, .stop]).store.get? key)) ∧
      l'.store.entries.map Prod.fst =
        [['/', 'w', '/', 'g'], ['/', 'w', '/', 'f']] := by
  obtain ⟨l, hnew⟩ : ∃ l, Loader.new oldFile oneRoot = .ok l := ⟨_, rfl⟩
  have hfresh : Loader.new newFile oneRoot = .ok l := by
    cases hnew
    rfl
  obtain ⟨l', hstart, hkeys⟩ : ∃ l',
      (l.run [.start oldFile true, .stop]).startWatching newFile true = (.ok (), l') ∧
        l'.store.entries.map Prod.fst = [['/', 'w', '/', 'g'], ['/', 'w', '/', 'f']] := by
    cases hnew
    exact ⟨_, rfl, rfl⟩
  obtain ⟨fresh', hfresh', -, hget, -⟩ := keys_of_restart rfl hnew rfl hstart hfresh rfl
  exact ⟨l, fresh', l', hnew, hstart, hfresh', hget, hkeys⟩

/-- **A file that is deleted while the loader is stopped is still held** when it is started again,
and a new loader would not hold it. -/
theorem deleted_held : ∃ l l' fresh fresh',
    Loader.new oldFile oneRoot = .ok l ∧ oneRoot.storage = some .empty ∧
      (l.run [.start oldFile true, .stop]).isWatching = false ∧
      (l.run [.start oldFile true, .stop]).startWatching noFile true = (.ok (), l') ∧
      Loader.new noFile oneRoot = .ok fresh ∧
      fresh.startWatching noFile true = (.ok (), fresh') ∧
      l'.store.contains ['/', 'w', '/', 'f'] = true ∧
      fresh'.store.contains ['/', 'w', '/', 'f'] = false :=
  ⟨_, _, _, _, rfl, rfl, rfl, rfl, rfl, rfl, rfl, rfl⟩

end Loader

end CertRotation
