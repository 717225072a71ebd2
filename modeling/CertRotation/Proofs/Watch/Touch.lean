import CertRotation.Proofs.Watch.PlainTree

/-!
# What a report does to one file

When a loader takes in a report, the disk may have moved on, so what the report does to the store
depends on a disk that the report knows nothing of.  For one file that now has `content` it comes to
one of a few touches (`Touch`): the report may load what there is now, drop it, do whichever of the
two fits, or have a chance to load it.

A file *settles* (`Settles`) if the touches that are queued leave the store with the present
content, however the chances fall.

* `Settles.append_of_forall`, `Settles.append_chances` — what may be queued behind other touches;
* `exists_notified` — taking in a report is one touch of each file without a mark.
-/

set_option autoImplicit false

namespace CertRotation

/-! ## Touches -/

/-- What a report may do to what a store holds for one file. -/
inductive Touch where
  /-- It may load what there is. -/
  | chance
  /-- It loads what there is. -/
  | load
  /-- It drops what the store holds. -/
  | drop
  /-- It loads what there is, or drops what the store holds if there is nothing. -/
  | look

namespace Touch

/-- The touch leads from `old` to `new` in the store while there is `content` to load. -/
def Leads (content : Option Bytes) : Touch → Option Bytes → Option Bytes → Prop
  | chance, old, new => new = old ∨ new = content.or old
  | load, old, new => new = content.or old
  | drop, _, new => new = none
  | look, _, new => new = content

end Touch

/-- However the touches fall, they leave the store with `content`. -/
def Settles (content : Option Bytes) : List Touch → Option Bytes → Prop
  | [], old => old = content
  | touch :: rest, old => ∀ new, touch.Leads content old new → Settles content rest new

namespace Settles

variable {content old : Option Bytes} {touches more : List Touch}

/-- Touches that come last decide, if they settle whatever there was before. -/
theorem append_of_forall (h : ∀ old, Settles content more old) :
    Settles content (touches ++ more) old := by
  induction touches generalizing old with
  | nil => exact h old
  | cons touch rest ih => exact fun new _ => ih

/-- Chances to load do no harm. -/
theorem append_chances (h : Settles content touches old) (hmore : ∀ t ∈ more, t = .chance) :
    Settles content (touches ++ more) old := by
  induction touches generalizing old with
  | cons touch rest ih => exact fun new hnew => ih (h new hnew)
  | nil =>
    rw [List.nil_append]
    obtain rfl : old = content := h
    induction more with
    | nil => rfl
    | cons touch rest ih =>
      obtain rfl : touch = .chance := hmore touch (by simp)
      rintro new (rfl | rfl)
      · exact ih fun t ht => hmore t (List.mem_cons_of_mem _ ht)
      · rw [Option.or_self]
        exact ih fun t ht => hmore t (List.mem_cons_of_mem _ ht)

/-- A file that is there settles by being loaded, as often as one likes. -/
theorem loads {data : Bytes} (hne : touches ≠ []) (h : ∀ t ∈ touches, t = .load)
    (old : Option Bytes) : Settles (some data) touches old := by
  induction touches generalizing old with
  | nil => exact absurd rfl hne
  | cons touch rest ih =>
    obtain rfl : touch = .load := h touch (by simp)
    rintro new rfl
    rcases eq_or_ne rest [] with rfl | hrest
    · rfl
    · exact ih hrest (fun t ht => h t (List.mem_cons_of_mem _ ht)) _

end Settles

/-- What a report of a kind does to the file that it is about. -/
def NotificationKind.touch : NotificationKind → Touch
  | .create | .content | .move .destination => .load
  | .remove | .move .origin => .drop
  | .move .unsaid => .look
  | _ => .chance

/-- What a report does to the file at `p`, if `p` carries no mark. -/
def Notification.touch (p : Path) (report : Notification) : Touch :=
  if report.paths = [p] then report.kind.touch else .chance

/-! ## Taking in one report -/

section TakeIn

variable {disk : Disk} {root names home : Location} {l : Loader}

theorem text_filePath_inj (hn : FileNames names) (hh : FileNames home)
    (h : (filePath root names).text = (filePath root home).text) : names = home :=
  Disk.text_pathOf_inj hn.isName hh.isName hn.readable hh.readable hn.ne_nil hh.ne_nil h

theorem filePath_inj (hn : FileNames names) (hh : FileNames home)
    (h : filePath root names = filePath root home) : names = home :=
  text_filePath_inj hn hh (congrArg Path.text h)

theorem PlainTree.isDir_eq_false (tree : PlainTree disk root) (hn : FileNames names)
    (hfile : disk.isDirAt (root ++ names) = false) :
    disk.isDir (filePath root names) = false := by
  rw [Bool.eq_false_iff, ne_eq, filePath,
    Disk.isDir_pathOf (tree.isName_append hn.isName) (tree.linkFree names)]
  exact fun h => Bool.false_ne_true (hfile.symm.trans h.2.2)

/-- Where no directory stands there is something to load as soon as anything stands there. -/
theorem PlainTree.occupied_eq (tree : PlainTree disk root) (hn : FileNames names)
    (hfile : disk.isDirAt (root ++ names) = false) :
    disk.occupied (filePath root names) = (disk.content? (filePath root names)).isSome := by
  rw [Bool.eq_iff_iff, filePath,
    Disk.occupied_pathOf (tree.isName_append hn.isName) (tree.linkFree names)]
  constructor
  · rintro ⟨hle, hup, hsome⟩
    obtain ⟨entry, hentry⟩ := Option.isSome_iff_exists.1 hsome
    rcases (tree.below names entry hn.ne_nil hentry).2 with hdir | ⟨-, content, hcontent, rfl⟩
    · exact absurd hentry (Disk.ne_of_isDirAt hfile hdir)
    · have h := (tree.content?_iff hn.isName).2 ⟨hle, hup, hentry, hcontent⟩
      rw [filePath] at h
      rw [h]
      rfl
  · intro hsome
    obtain ⟨content, hcontent⟩ := Option.isSome_iff_exists.1 hsome
    obtain ⟨hle, hup, hentry, -⟩ := (tree.content?_iff hn.isName).1 hcontent
    exact ⟨hle, hup, by rw [hentry]; rfl⟩

/-- The store goes from what `l` holds to `store` by one touch of the file that `names` lead to;
every other file has at most a chance to be loaded, and no key but that of a file appears. -/
structure TouchesFile (disk : Disk) (root : Location) (l : Loader) (names : Location)
    (touch : Touch) (store : Store) : Prop where
  leads : ∀ home, FileNames home → ¬ (filePath root home).IsMarked →
    (if names = home then touch else .chance).Leads (disk.content? (filePath root home))
      (l.store.get? (filePath root home).text) (store.get? (filePath root home).text)
  keys : ∀ key, (store.get? key).isSome → (l.store.get? key).isSome ∨
    ∃ home, FileNames home ∧ ¬ (filePath root home).IsMarked ∧ key = (filePath root home).text

/-- Loading one file loads what there is of it, and at most that of any other. -/
theorem touchesFile_load (hl : l.IsUsual) (tree : PlainTree disk root) (hn : FileNames names) :
    TouchesFile disk root l names .load
      (l.store.insertAll (l.supply? disk (filePath root names)).toList) := by
  refine ⟨fun home hh hmark => ?_, fun key hkey => ?_⟩
  · rw [Store.get?_insertAll]
    split
    · rename_i hsame
      rw [hsame, hl.supply?_unmarked hmark]
      cases disk.content? (filePath root home) with
      | none => rfl
      | some content => simp [Touch.Leads]
    cases hsupply : l.supply? disk (filePath root names) with
    | none => exact .inl rfl
    | some e =>
      obtain ⟨key, content⟩ := e
      obtain ⟨other, hother, -, rfl, hcontent⟩ := hl.exists_of_supply? tree hn hsupply
      rcases eq_or_ne other home with rfl | hne
      · rw [hcontent]
        exact .inr (by simp)
      · have hkey : ((filePath root home).text == (filePath root other).text) = false :=
          beq_eq_false_iff_ne.2 fun e => hne (text_filePath_inj hother hh e.symm)
        exact .inl (by simp [List.lookup_cons, hkey])
  · cases hsupply : l.supply? disk (filePath root names) with
    | none =>
      rw [hsupply] at hkey
      exact .inl hkey
    | some e =>
      obtain ⟨other, content⟩ := e
      obtain ⟨home, hhome, hmark, rfl, -⟩ := hl.exists_of_supply? tree hn hsupply
      rw [hsupply, Store.get?_insertAll] at hkey
      rcases eq_or_ne key (filePath root home).text with rfl | hne
      · exact .inr ⟨home, hhome, hmark, rfl⟩
      · have hother : (key == (filePath root home).text) = false := beq_eq_false_iff_ne.2 hne
        exact .inl (by simpa [List.lookup_cons, hother] using hkey)

/-- Dropping one file leaves the others alone. -/
theorem touchesFile_drop (hl : l.IsUsual) (hn : FileNames names) {op : Ops}
    (hop : op ∈ [Ops.remove, .rename]) :
    ∃ store, l.handle disk ⟨filePath root names, op⟩ = { l with store := store } ∧
      TouchesFile disk root l names .drop store := by
  by_cases hmark : (filePath root names).IsMarked
  · refine ⟨l.store, hl.handle_drop_marked hop hmark, fun home hh hmark' => ?_, fun key => .inl⟩
    rw [if_neg (by rintro rfl; exact hmark' hmark)]
    exact .inl rfl
  · refine ⟨_, hl.handle_drop hop hmark, fun home hh hmark' => ?_, fun key hkey => ?_⟩
    · rw [Store.get?_erase]
      rcases eq_or_ne names home with rfl | hne
      · rw [if_pos rfl, if_pos rfl]
        rfl
      · rw [if_neg hne, if_neg fun e => hne (text_filePath_inj hn hh e.symm)]
        exact .inl rfl
    · rw [Store.get?_erase] at hkey
      split at hkey
      · cases hkey
      · exact .inl hkey

/-- The kinds of report that changes of files cause. -/
def fileKinds : List NotificationKind :=
  [.create, .content, .remove, .move .origin, .move .destination, .move .unsaid]

/-- Taking in a report of one of these kinds touches the file as the kind says. -/
theorem exists_touchesFile (hl : l.IsUsual) (tree : PlainTree disk root) (hn : FileNames names)
    (hfile : disk.isDirAt (root ++ names) = false) {kind : NotificationKind}
    (hkind : kind ∈ fileKinds) :
    ∃ store, ((Notification.op? disk kind (filePath root names)).elim l fun op =>
        l.handle disk ⟨filePath root names, op⟩) = { l with store := store } ∧
      TouchesFile disk root l names kind.touch store := by
  have hload : ∀ op ∈ [Ops.create, .write], ∃ store,
      l.handle disk ⟨filePath root names, op⟩ = { l with store := store } ∧
        TouchesFile disk root l names .load store :=
    fun op hop => ⟨_, hl.handle_load hop _, touchesFile_load hl tree hn⟩
  have hdrop : ∀ op ∈ [Ops.remove, .rename], ∃ store,
      l.handle disk ⟨filePath root names, op⟩ = { l with store := store } ∧
        TouchesFile disk root l names .drop store :=
    fun op hop => touchesFile_drop hl hn hop
  simp only [fileKinds, List.mem_cons, List.not_mem_nil, or_false] at hkind
  rcases hkind with rfl | rfl | rfl | rfl | rfl | rfl
  · exact hload .create (by simp)
  · exact hload .write (by simp)
  · exact hdrop .remove (by simp)
  · exact hdrop .rename (by simp)
  · exact hload .create (by simp)
  -- A half of a move that does not say which it is looks at the disk.
  rw [Notification.op?, tree.occupied_eq hn hfile]
  cases hcontent : disk.content? (filePath root names) with
  | none =>
    obtain ⟨store, hstore, htouch⟩ := hdrop .rename (by simp)
    refine ⟨store, hstore, fun home hh hmark => ?_, htouch.keys⟩
    have h := htouch.leads home hh hmark
    rcases eq_or_ne names home with rfl | hne
    · rw [if_pos rfl] at h ⊢
      rw [hcontent]
      exact h
    · rwa [if_neg hne] at h ⊢
  | some content =>
    obtain ⟨store, hstore, htouch⟩ := hload .create (by simp)
    refine ⟨store, hstore, fun home hh hmark => ?_, htouch.keys⟩
    have h := htouch.leads home hh hmark
    rcases eq_or_ne names home with rfl | hne
    · rw [if_pos rfl] at h ⊢
      rw [hcontent] at h ⊢
      exact h
    · rwa [if_neg hne] at h ⊢

end TakeIn

/-- A report about one file below the root. -/
def IsFileReport (disk : Disk) (root : Location) (report : Notification) : Prop :=
  ∃ names kind, FileNames names ∧ disk.isDirAt (root ++ names) = false ∧ kind ∈ fileKinds ∧
    report = ⟨kind, [filePath root names]⟩

/-- **What taking in a report does**: to each file without a mark, one touch. -/
theorem exists_notified {disk : Disk} {root : Location} {l : Loader} {report : Notification}
    (hl : l.IsUsual) (hf : l.IsFollowing) (tree : PlainTree disk root)
    (hr : IsFileReport disk root report) :
    ∃ store, l.notified disk report = { l with store := store } ∧
      (∀ home, FileNames home → ¬ (filePath root home).IsMarked →
        (report.touch (filePath root home)).Leads (disk.content? (filePath root home))
          (l.store.get? (filePath root home).text) (store.get? (filePath root home).text)) ∧
      ∀ key, (store.get? key).isSome → (l.store.get? key).isSome ∨
        ∃ home, FileNames home ∧ ¬ (filePath root home).IsMarked ∧
          key = (filePath root home).text := by
  obtain ⟨names, kind, hn, hfile, hkind, rfl⟩ := hr
  obtain ⟨store, hstore, htouch⟩ := exists_touchesFile hl tree hn hfile hkind
  refine ⟨store, ?_, fun home hh hmark => ?_, htouch.keys⟩
  · rw [Loader.notified_eq hf (tree.isDir_eq_false hn hfile), hstore]
  · have h := htouch.leads home hh hmark
    rcases eq_or_ne names home with rfl | hne
    · rw [if_pos rfl] at h
      rwa [Notification.touch, if_pos rfl]
    · rw [if_neg hne] at h
      have hpath : [filePath root names] ≠ [filePath root home] := by
        simpa using fun e => hne (filePath_inj hn hh e)
      rwa [Notification.touch, if_neg hpath]

end CertRotation
