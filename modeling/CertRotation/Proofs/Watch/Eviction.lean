import CertRotation.Proofs.Watch.Restart
import CertRotation.Proofs.Watch.Unmarking

/-!
# Which entries can be dropped

The mark of a staged copy is taken off to load and not to drop: the departure of a path that carries
it means nothing.  The mark is taken off once, though, and what is left may carry it again.  So
there are entries that came from a marked file, and no departure of that file drops them.

Whether an entry can be dropped depends on the file that it was last read from, and the store does
not know that file.  So a history of scans and changes is written down as a list of deeds, each of
which puts the content of a file under a key or drops a key.

* `LoaderStep`, `Loader.after` — a history, and what it leads to;
* `Deed`, `Loader.deeds` — what a step of it does to the store;
* `Loader.LastRead` — the file that an entry was last read from;
* `Loader.evicted_of_lastRead` — **which entries can be dropped**;
* `Loader.marked_held` — one that cannot.
-/

set_option autoImplicit false

namespace CertRotation

/-- Something done to one key of a store: what a file holds is put under it, or it is dropped. -/
inductive Deed where
  | stored (file : Path) (key : Key) (content : Bytes)
  | dropped (key : Key)

namespace Deed

/-- The deed without the file. -/
def edit : Deed → StoreEdit
  | stored _ key content => .put key content
  | dropped key => .drop key

/-- The key that the deed is about. -/
def key : Deed → Key
  | stored _ key _ => key
  | dropped key => key

theorem key_edit (d : Deed) : d.edit.key = d.key := by
  cases d <;> rfl

end Deed

/-- What happens to the store of a loader: its roots are scanned or a change is handled, with the
disk as it is at that moment. -/
inductive LoaderStep where
  | scan (disk : Disk)
  | handle (disk : Disk) (change : Change)

/-- The disk at the moment of the step. -/
def LoaderStep.disk : LoaderStep → Disk
  | scan disk => disk
  | handle disk _ => disk

namespace Loader

variable {disk : Disk} {l : Loader} {p file : Path} {key : Key} {content : Bytes}
  {steps : List LoaderStep}

/-! ## Deeds -/

/-- The loader after a step. -/
def step (l : Loader) : LoaderStep → Loader
  | .scan disk => (l.scan disk).2
  | .handle disk change => l.handle disk change

/-- The loader after some steps. -/
def after (l : Loader) (steps : List LoaderStep) : Loader := steps.foldl step l

/-- What is done when a path is loaded. -/
def loaded? (disk : Disk) (l : Loader) (p : Path) : Option Deed :=
  (l.source? p).bind fun source =>
    (disk.content? source.1).map fun content => .stored source.1 source.2 content

/-- What a step does to the store. -/
def deeds (l : Loader) : LoaderStep → List Deed
  | .scan disk => (disk.visited l.roots).filterMap (l.loaded? disk)
  | .handle disk change =>
    if change.isAny l.ops then
      if change.op.meets (Ops.remove.union .rename) then
        match l.resolver.key? change.path with
        | none => []
        | some key => if l.marks change.path then [] else [.dropped key]
      else (l.loaded? disk change.path).toList
    else []

theorem map_edit_loaded? (disk : Disk) (l : Loader) (p : Path) :
    (l.loaded? disk p).map Deed.edit = (l.supply? disk p).map fun e => .put e.1 e.2 := by
  rw [loaded?, supply?_eq]
  cases l.source? p with
  | none => rfl
  | some source => cases h : disk.content? source.1 <;> simp [h, Deed.edit]

/-- The deeds of a step are its edits of the store. -/
theorem step_eq (l : Loader) (s : LoaderStep) :
    l.step s = { l with store := l.store.edited ((l.deeds s).map Deed.edit) } := by
  cases s with
  | scan disk =>
    have hedits : (l.deeds (.scan disk)).map Deed.edit = l.scanEdits disk := by
      rw [deeds, scanEdits, scanned, scannedIn_eq, List.map_filterMap, List.map_filterMap]
      simp only [map_edit_loaded?]
    rw [hedits]
    exact snd_scan_eq disk l
  | handle disk change =>
    have hedits : (l.deeds (.handle disk change)).map Deed.edit = l.editsOf disk change := by
      rw [deeds, editsOf]
      split
      · split
        · cases l.resolver.key? change.path with
          | none => rfl
          | some key =>
            simp only [isSome_staged?]
            split <;> rfl
        · rw [← Option.toList_map, ← Option.toList_map, map_edit_loaded?]
      · rfl
    rw [hedits]
    exact handle_eq disk l change

/-- **The deeds of a history** are those of its steps, in order. -/
theorem after_eq (l : Loader) (steps : List LoaderStep) :
    l.after steps =
      { l with store := l.store.edited ((steps.flatMap l.deeds).map Deed.edit) } := by
  induction steps generalizing l with
  | nil => rfl
  | cons s steps ih =>
    have hrest : l.after (s :: steps) = (l.step s).after steps := rfl
    rw [hrest, ih, step_eq, List.flatMap_cons, List.map_append, Store.edited_append]
    -- What a step does does not depend on the store.
    rfl

@[simp] theorem resolver_after (l : Loader) (steps : List LoaderStep) :
    (l.after steps).resolver = l.resolver := by
  rw [after_eq]

@[simp] theorem ops_after (l : Loader) (steps : List LoaderStep) :
    (l.after steps).ops = l.ops := by
  rw [after_eq]

@[simp] theorem marks_after (l : Loader) (steps : List LoaderStep) (p : Path) :
    (l.after steps).marks p = l.marks p := by
  rw [after_eq]
  rfl

/-! ## Where an entry comes from -/

/-- The entry under a key was last read from a file, and nothing has been done to the key since. -/
def LastRead (l : Loader) (steps : List LoaderStep) (file : Path) (key : Key) (content : Bytes) :
    Prop :=
  ∃ before after, steps.flatMap l.deeds = before ++ .stored file key content :: after ∧
    ∀ d ∈ after, d.key ≠ key

/-- What was last read is held. -/
theorem LastRead.get?_after (h : l.LastRead steps file key content) :
    (l.after steps).store.get? key = some content := by
  obtain ⟨before, after, hdeeds, hafter⟩ := h
  have hlater : (after.map Deed.edit).reverse.find? (fun e => key = e.key) = none := by
    rw [List.find?_eq_none]
    intro e he
    obtain ⟨d, hd, rfl⟩ := List.mem_map.1 (List.mem_reverse.1 he)
    rw [Deed.key_edit, decide_eq_true_eq]
    exact Ne.symm (hafter d hd)
  rw [after_eq, Store.get?_edited, hdeeds, List.map_append, List.map_cons, List.reverse_append,
    List.reverse_cons, List.append_assoc, List.find?_append, hlater, Option.none_or,
    List.singleton_append, List.find?_cons_of_pos (by simp [Deed.edit, StoreEdit.key])]
  rfl

/-- A file is stored by a step that comes to a path that stands for it. -/
theorem exists_of_stored_mem {s : LoaderStep} (h : .stored file key content ∈ l.deeds s) :
    ∃ p, l.source? p = some (file, key) ∧ s.disk.read file = .ok content := by
  have hloaded : ∀ p, l.loaded? s.disk p = some (.stored file key content) →
      l.source? p = some (file, key) ∧ s.disk.read file = .ok content := by
    intro p hp
    rw [loaded?, Option.bind_eq_some_iff] at hp
    obtain ⟨source, hsource, hp⟩ := hp
    obtain ⟨bytes, hcontent, heq⟩ := Option.map_eq_some_iff.1 hp
    cases heq
    exact ⟨hsource, (Disk.content?_eq_some.1 hcontent).1⟩
  cases s with
  | scan disk =>
    obtain ⟨p, -, hp⟩ := List.mem_filterMap.1 h
    exact ⟨p, hloaded p hp⟩
  | handle disk change =>
    rw [deeds] at h
    split at h
    · split at h
      · split at h
        · cases h
        · split at h
          · cases h
          · simp at h
      · exact ⟨change.path, hloaded _ (Option.mem_toList.1 h)⟩
    · cases h

/-- What was read was read for some path that stands for the file. -/
theorem LastRead.exists_source (h : l.LastRead steps file key content) :
    ∃ s ∈ steps, ∃ p, l.source? p = some (file, key) ∧ s.disk.read file = .ok content := by
  obtain ⟨before, after, hdeeds, -⟩ := h
  have hmem : Deed.stored file key content ∈ steps.flatMap l.deeds := by
    rw [hdeeds]
    simp
  obtain ⟨s, hs, hstored⟩ := List.mem_flatMap.1 hmem
  exact ⟨s, hs, exists_of_stored_mem hstored⟩

/-! ## Dropping entries -/

theorem meets_remove : Ops.remove.meets (Ops.remove.union .rename) = true := by decide

/-- The departure of a path drops its key, unless the path carries the mark. -/
theorem handle_remove (hremove : Ops.remove.meets l.ops) (hkey : l.resolver.key? p = some key)
    (hmarks : l.marks p = false) (disk : Disk) :
    l.handle disk ⟨p, .remove⟩ = { l with store := l.store.erase key } := by
  have hany : Change.isAny ⟨p, .remove⟩ l.ops = true := hremove
  have hdeeds : l.deeds (.handle disk ⟨p, .remove⟩) = [.dropped key] := by
    rw [deeds, if_pos hany, if_pos meets_remove]
    simp only [hkey, hmarks, Bool.false_eq_true, if_false]
  have hstep := l.step_eq (.handle disk ⟨p, .remove⟩)
  rw [hdeeds] at hstep
  exact hstep

/-- The departure of a path that carries the mark means nothing. -/
theorem handle_remove_of_marks (hmarks : l.marks p = true) (disk : Disk) :
    l.handle disk ⟨p, .remove⟩ = l := by
  have hdeeds : l.deeds (.handle disk ⟨p, .remove⟩) = [] := by
    rw [deeds]
    by_cases hany : Change.isAny ⟨p, .remove⟩ l.ops = true
    · rw [if_pos hany, if_pos meets_remove]
      cases l.resolver.key? p with
      | none => rfl
      | some key => exact if_pos hmarks
    · rw [if_neg hany]
  have hstep := l.step_eq (.handle disk ⟨p, .remove⟩)
  rw [hdeeds] at hstep
  exact hstep

/-- **Which entries can be dropped.**  An entry is held that was last read from a file.  If the file
carries no mark and has the key of the entry, its departure drops the entry and nothing else; if the
file carries the mark, its departure means nothing.  The file was read for a path that stands for
it.  If that was its own path, the file carries no mark and has the key.  If that was a staged copy,
the file has the key where whole paths are keys, and where only the last name of the copy is marked,
with the exceptions that keys have. -/
theorem evicted_of_lastRead (hremove : Ops.remove.meets l.ops)
    (hlast : l.LastRead steps file key content) (disk : Disk) :
    (l.after steps).store.get? key = some content ∧
      (l.marks file = false → l.resolver.key? file = some key → ∀ other,
        ((l.after steps).handle disk ⟨file, .remove⟩).store.get? other =
          if other = key then none else (l.after steps).store.get? other) ∧
      (l.marks file = true → (l.after steps).handle disk ⟨file, .remove⟩ = l.after steps) ∧
      ∃ s ∈ steps, ∃ p raw, l.source? p = some (file, key) ∧ l.resolver.key? p = some raw ∧
        s.disk.read file = .ok content ∧
        (l.marks p = false →
          p = file ∧ l.marks file = false ∧ l.resolver.key? file = some key) ∧
        (l.resolver.strategy = .fullPath → l.resolver.key? file = some key) ∧
        (s.disk.IsTree → p.isAbsolute → l.MarksName p raw →
          (l.resolver.strategy = .pathRelativeToRoot →
            ∀ root ∈ l.resolver.roots, ¬ file.same root) →
          (l.resolver.strategy = .nameNoExtension → key ≠ []) →
          l.resolver.key? file = some key) := by
  have hheld := hlast.get?_after
  refine ⟨hheld, fun hmarks hkey other => ?_, fun hmarks => ?_, ?_⟩
  · rw [← ops_after l steps] at hremove
    rw [← resolver_after l steps] at hkey
    rw [← marks_after l steps] at hmarks
    rw [handle_remove hremove hkey hmarks, Store.get?_erase]
  · rw [← marks_after l steps] at hmarks
    exact handle_remove_of_marks hmarks disk
  · obtain ⟨s, hs, p, hsource, hread⟩ := hlast.exists_source
    obtain ⟨raw, hraw, -⟩ := Option.map_eq_some_iff.1 hsource
    refine ⟨s, hs, p, raw, hsource, hraw, hread, fun hmarks => ?_,
      fun hstrategy => key?_of_fullPath hstrategy hsource,
      fun tree habsolute hm => (source?_of_marksName tree habsolute hraw hm hsource hread).2.2⟩
    rw [source?_of_not_marks hmarks, hraw] at hsource
    cases hsource
    exact ⟨rfl, hmarks, hraw⟩

/-- A file in a directory. -/
def liveFile : Disk := ⟨[([[119]], .dir), ([[119], [102]], .file [120])], []⟩

/-- A staged copy of the file appears and the file is loaded; then the file is removed. -/
theorem evicted_of_liveFile : ∃ l, Loader.new liveFile (.usual [⟨[47, 119]⟩]) = .ok l ∧
    Ops.remove.meets l.ops = true ∧
    l.LastRead [.handle liveFile ⟨⟨[47, 119, 47, 102, 126]⟩, .create⟩] ⟨[47, 119, 47, 102]⟩
      ['/', 'w', '/', 'f'] [120] ∧
    ((l.after [.handle liveFile ⟨⟨[47, 119, 47, 102, 126]⟩, .create⟩]).handle ⟨[], []⟩
      ⟨⟨[47, 119, 47, 102]⟩, .remove⟩).store.get? ['/', 'w', '/', 'f'] = none := by
  obtain ⟨l, hnew⟩ : ∃ l, Loader.new liveFile (.usual [⟨[47, 119]⟩]) = .ok l := ⟨_, rfl⟩
  have hops : Ops.remove.meets l.ops = true := by
    cases hnew
    rfl
  have hlast : l.LastRead [.handle liveFile ⟨⟨[47, 119, 47, 102, 126]⟩, .create⟩]
      ⟨[47, 119, 47, 102]⟩ ['/', 'w', '/', 'f'] [120] := by
    cases hnew
    exact ⟨[], [], rfl, nofun⟩
  obtain ⟨-, hdrop, -⟩ := evicted_of_lastRead hops hlast ⟨[], []⟩
  have hmarks : l.marks ⟨[47, 119, 47, 102]⟩ = false := by
    cases hnew
    rfl
  have hkey : l.resolver.key? ⟨[47, 119, 47, 102]⟩ = some ['/', 'w', '/', 'f'] := by
    cases hnew
    rfl
  exact ⟨l, hnew, hops, hlast, (hdrop hmarks hkey _).trans (if_pos rfl)⟩

/-- A file in a directory whose name ends in the mark. -/
def markedFile : Disk := ⟨[([[119]], .dir), ([[119], [102, 126]], .file [120])], []⟩

/-- **A marked file is held for good**: it was loaded for a path that carries the mark twice, and
its departure means nothing. -/
theorem marked_held : ∃ l, Loader.new markedFile (.usual [⟨[47, 119]⟩]) = .ok l ∧
    Ops.remove.meets l.ops = true ∧
    l.LastRead [.handle markedFile ⟨⟨[47, 119, 47, 102, 126, 126]⟩, .create⟩]
      ⟨[47, 119, 47, 102, 126]⟩ ['/', 'w', '/', 'f', '~'] [120] ∧
    ((l.after [.handle markedFile ⟨⟨[47, 119, 47, 102, 126, 126]⟩, .create⟩]).handle ⟨[], []⟩
      ⟨⟨[47, 119, 47, 102, 126]⟩, .remove⟩).store.get? ['/', 'w', '/', 'f', '~'] =
        some [120] := by
  obtain ⟨l, hnew⟩ : ∃ l, Loader.new markedFile (.usual [⟨[47, 119]⟩]) = .ok l := ⟨_, rfl⟩
  refine ⟨l, hnew, ?_⟩
  cases hnew
  exact ⟨rfl, ⟨[], [], rfl, nofun⟩, rfl⟩

end Loader

end CertRotation
