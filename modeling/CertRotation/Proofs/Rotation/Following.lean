import CertRotation.Proofs.Rotation.NamedFiles

/-!
# A certificate directory that follows changes

A certificate directory that has been started takes in reports, and each report can change the store
only.  A report of anything but a removal makes it load a file once more.  Where files in subfolders
do not interfere, that makes no difference if a refresh has seen the files as they are.

* `CertDirectory.Follows` — the directory has been started;
* `CertDirectory.OwnFileDecides` — nothing but the directory's own file counts for a name;
* `CertDirectory.get_foldl_notified` — after a refresh, reports that are not of removals make no
  difference to the material.
-/

set_option autoImplicit false

namespace CertRotation

/-- The report is about a file that may stand in the directory. -/
def Notification.IsAboutFile (disk : Disk) (root : Location) (report : Notification) : Prop :=
  ∃ kind name, (kind = .create ∨ kind = .content ∨ kind = .remove) ∧ IsName name ∧
    disk.IsFilePlace (root ++ [name]) ∧ report = ⟨kind, [filePath root [name]]⟩

namespace CertDirectory

/-- The directory loads the files below `root` under their names and takes in reports. -/
structure Follows (root : Location) (d : CertDirectory) : Prop where
  roots : d.loader.roots = [Disk.pathOf root]
  byName : d.loader.GoesByName
  following : d.loader.IsFollowing

variable {disk : Disk} {root : Location} {d d' : CertDirectory} {report : Notification}

theorem Follows.withStore (h : d.Follows root) (store : Store) :
    Follows root { d with loader := { d.loader with store := store } } :=
  ⟨h.roots, ⟨h.byName.strategy, h.byName.marker⟩, h.following⟩

/-- **A directory that has been started** follows changes. -/
theorem follows_of_start {before : Disk} {s : RotationSettings} {runtime : Bool}
    (hroot : before.canonical s.certDir = .ok (Disk.pathOf root))
    (hnew : CertDirectory.new before s = .ok d) (hstart : d.start disk runtime = (.ok (), d')) :
    d'.Follows root := by
  obtain ⟨hroots, hname, hidle⟩ := of_new hroot hnew
  rw [start] at hstart
  cases hloader : d.loader.startWatching disk runtime with
  | mk answer loader =>
    rw [hloader] at hstart
    cases answer with
    | error e => cases hstart
    | ok =>
      cases hstart
      obtain ⟨hfollowing, scanned, w, hscan, rfl⟩ := Loader.exists_of_startWatching hidle hloader
      rw [Loader.scan_eq hroots] at hscan
      split at hscan
      · cases hscan
      · obtain ⟨-, rfl⟩ := Prod.mk.inj hscan
        exact ⟨hroots, ⟨hname.strategy, hname.marker⟩, hfollowing⟩

/-- **Refreshing a directory that stands succeeds.** -/
theorem Follows.refresh_eq (h : d.Follows root) (hstand : StandingDir disk root) :
    d.refresh disk = (.ok (), { d with loader := { d.loader with
      store := d.loader.store.insertAll (d.loader.supplies disk
        (⟨Disk.pathOf root, true⟩ :: disk.visitsBelow (Disk.pathOf root) root)) } }) := by
  rw [refresh, Loader.scan_eq h.roots, hstand.walk_eq]
  rfl

theorem Follows.of_refresh (h : d.Follows root) (hstand : StandingDir disk root)
    (hrefresh : d.refresh disk = (.ok (), d')) : d'.Follows root := by
  rw [h.refresh_eq hstand] at hrefresh
  cases hrefresh
  exact h.withStore _

/-- A report about a file is handled as the change that it means. -/
theorem Follows.exists_notified_eq (h : d.Follows root) (hstand : StandingDir disk root)
    (hreport : report.IsAboutFile disk root) :
    ∃ name op, IsName name ∧
      d.notified disk report =
        { d with loader := d.loader.handle disk ⟨filePath root [name], op⟩ } ∧
      (report.kind ≠ .remove → op.meets (Ops.remove.union .rename) = false) := by
  obtain ⟨kind, name, hkind, hname, hplace, rfl⟩ := hreport
  have hdir := hstand.isDir_eq_false hname hplace
  have heq : ∀ kind, d.loader.notified disk ⟨kind, [filePath root [name]]⟩ = _ := fun kind =>
    Loader.notified_eq h.following hdir
  rw [notified]
  rcases hkind with rfl | rfl | rfl
  · exact ⟨name, .create, hname, by rw [heq]; rfl, fun _ => by decide⟩
  · exact ⟨name, .write, hname, by rw [heq]; rfl, fun _ => by decide⟩
  · exact ⟨name, .remove, hname, by rw [heq]; rfl, fun hkind => absurd rfl hkind⟩

theorem Follows.notified (h : d.Follows root) (hstand : StandingDir disk root)
    (hreport : report.IsAboutFile disk root) : (d.notified disk report).Follows root := by
  obtain ⟨name, op, -, heq, -⟩ := h.exists_notified_eq hstand hreport
  obtain ⟨store, hstore⟩ := d.loader.exists_handle disk ⟨filePath root [name], op⟩
  rw [heq, hstore]
  exact h.withStore store

/-! ## Loading once more -/

/-- Whatever counts for the name has the content of the directory's own file. -/
structure OwnFileDecides (disk : Disk) (root : Location) (name : Key) : Prop where
  plainName : PlainName name
  isName : ∀ e ∈ disk.below root, ∀ n ∈ e.1, IsName n
  agrees : ∀ e ∈ disk.below root, ∀ c, StandsFor disk root name e c →
    disk.content? (filePath root [Utf8.encode name]) = some c

/-- The store has what there is to load of the directory's own file for the name. -/
def HasSeen (disk : Disk) (root : Location) (name : Key) (d : CertDirectory) : Prop :=
  ∀ c, disk.content? (filePath root [Utf8.encode name]) = some c →
    d.loader.store.get? name = some c

variable {name : Key}

/-- **A refresh sees the directory's own file.** -/
theorem Follows.hasSeen_of_refresh (h : d.Follows root) (hstand : StandingDir disk root)
    (hown : OwnFileDecides disk root name) (hrefresh : d.refresh disk = (.ok (), d')) :
    HasSeen disk root name d' := by
  intro c hc
  rw [h.refresh_eq hstand] at hrefresh
  cases hrefresh
  have hsome := exists_standsFor hstand hown.plainName hc
  obtain ⟨content, hcontent⟩ := exists_get?_insertAll_supplies hstand.isTree h.byName
    hown.plainName hstand.isName hown.isName hsome d.loader.store
  obtain ⟨front, e, rest, hbelow, hstands, -⟩ := (get?_insertAll_supplies hstand.isTree h.byName
    hown.plainName hstand.isName hown.isName hsome d.loader.store).1 hcontent
  have hagrees := hown.agrees e (by simp [hbelow]) content hstands
  rw [hagrees] at hc
  rw [hcontent, hc]

/-- **A file that is loaded once more makes no difference** where it has been seen as it is. -/
theorem Follows.get?_notified (h : d.Follows root) (hstand : StandingDir disk root)
    (hreport : report.IsAboutFile disk root) (hkind : report.kind ≠ .remove)
    (hname : PlainName name) (hseen : HasSeen disk root name d) :
    (d.notified disk report).loader.store.get? name = d.loader.store.get? name := by
  obtain ⟨file, op, hfile, heq, hload⟩ := h.exists_notified_eq hstand hreport
  rw [heq, Loader.handle]
  split
  · rw [Loader.apply_load (hload hkind)]
    cases hsupply : d.loader.supply? disk (filePath root [file]) with
    | none => rfl
    | some loaded =>
      obtain ⟨key, content⟩ := loaded
      dsimp only
      rw [Store.get?_insertAll]
      by_cases hkey : name = key
      · subst hkey
        obtain ⟨up, hup, hcontent⟩ := (supply?_eq_some_iff h.byName hname
          (hstand.isName_concat hfile) (by simp)).1 hsupply
        obtain rfl : up = [] := by
          rcases hup with hup | ⟨hup, -⟩
          · simpa using congrArg List.length hup
          · simpa using congrArg List.length hup
        simp [hseen content hcontent]
      · have hne : (name == key) = false := beq_eq_false_iff_ne.2 hkey
        simp [List.lookup_cons, hne]
  · rfl

/-- The three names of the files that make material. -/
def fileNames (d : CertDirectory) : List Key := [d.certFile, d.keyFile, d.caFile]

theorem fileNames_foldl_notified (reports : List Notification) :
    (reports.foldl (fun d report => d.notified disk report) d).fileNames = d.fileNames := by
  induction reports generalizing d with
  | nil => rfl
  | cons report rest ih => exact ih

/-- What the store holds under the three names decides the material. -/
theorem get_congr {readers : Readers} (hnames : d'.fileNames = d.fileNames)
    (hstore : ∀ name ∈ d.fileNames, d'.loader.store.get? name = d.loader.store.get? name) :
    d'.get readers = d.get readers := by
  rw [fileNames, fileNames, List.cons.injEq, List.cons.injEq, List.cons.injEq] at hnames
  obtain ⟨hcert, hkey, hca, -⟩ := hnames
  rw [get, get, materialFrom, materialFrom, hcert, hkey, hca, hstore _ (by simp [fileNames]),
    hstore _ (by simp [fileNames]), hstore _ (by simp [fileNames])]

/-- **Reports of what a refresh has seen make no difference.** -/
theorem Follows.get_foldl_notified {before : CertDirectory} {reports : List Notification}
    {readers : Readers} (h : before.Follows root) (hstand : StandingDir disk root)
    (hrefresh : before.refresh disk = (.ok (), d))
    (hown : ∀ name ∈ d.fileNames, OwnFileDecides disk root name)
    (hreports : ∀ report ∈ reports, report.IsAboutFile disk root ∧ report.kind ≠ .remove) :
    (reports.foldl (fun d report => d.notified disk report) d).get readers = d.get readers := by
  have hd : d.Follows root := h.of_refresh hstand hrefresh
  have hseen : ∀ name ∈ d.fileNames, HasSeen disk root name d := fun name hname =>
    h.hasSeen_of_refresh hstand (hown name hname) hrefresh
  clear hrefresh
  induction reports generalizing d with
  | nil => rfl
  | cons report rest ih =>
    obtain ⟨habout, hkind⟩ := hreports report List.mem_cons_self
    have hsame : ∀ name ∈ d.fileNames,
        (d.notified disk report).loader.store.get? name = d.loader.store.get? name :=
      fun name hname =>
        hd.get?_notified hstand habout hkind (hown name hname).plainName (hseen name hname)
    rw [List.foldl_cons, ih]
    · exact get_congr rfl hsame
    · exact hown
    · exact fun other hother => hreports other (List.mem_cons_of_mem _ hother)
    · exact hd.notified hstand habout
    · intro name hname c hc
      rw [hsame name hname]
      exact hseen name hname c hc

end CertDirectory

end CertRotation
