import CertRotation.Proofs.Disk.Lookup

/-!
# Links on the way

A walk stops at a link that has to be followed, and the search goes on along the target of the link
with the names that were left.  How many links there will be cannot be read off the names, but two
things can be said without counting them.  A search that does not follow a link at its end goes the
way of the one that does, up to that link.  And a search for a longer path goes the way of the
search for its beginning, and then on from where that one led.

A walk needs both searches: the first to tell what stands at its path, the other one to go on.

* `Disk.locate_unfollowed`, `Disk.linkStat_eq_stat_or` — what stands at a path, and what it leads
  to;
* `Disk.walk_eq_ok`, `Disk.exists_walk_of_stat` — how a walk starts;
* `Disk.CanWalk`, `Disk.stop?` — the roots at which a walk goes on, and the first one of some roots
  at which it does not;
* `Disk.locate_eq_ok` — where a path leads, as a search for its names;
* `Disk.walkNames_append`, `Disk.follow_append` — a longer path;
* `Disk.follow_of_blank` — a separator at the end of a path.
-/

set_option autoImplicit false

namespace CertRotation

/-! ## A link at the end -/

namespace Disk

variable {disk : Disk} {p : Path}

/-- A link stands at a location. -/
def IsLinkAt (disk : Disk) (place : Location) : Prop :=
  ∃ target, disk.entry? place = some (.link target)

/-- A walk that does not follow a link at its end goes the way of one that does, up to that link. -/
theorem walkNames_unfollowed (place : Location) (names : List Bytes) :
    disk.walkNames ⟨false, false⟩ place names = disk.walkNames ⟨true, false⟩ place names ∨
      ∃ found, disk.walkNames ⟨false, false⟩ place names = .ok (.arrived found) ∧
        disk.IsLinkAt found := by
  induction names generalizing place with
  | nil => exact .inl rfl
  | cons name rest ih =>
    rw [walkNames, walkNames]
    split
    · split
      · exact ih place
      · exact .inl rfl
    split
    · exact .inl rfl
    split
    · exact ih place
    split
    · exact ih place.dropLast
    split
    · exact .inl rfl
    dsimp only
    cases hnext : disk.entry? (place ++ [name]) with
    | none => exact .inl rfl
    | some entry =>
      cases entry with
      | link target =>
        by_cases hrest : rest = []
        · exact .inr ⟨place ++ [name], by simp [hrest], target, hnext⟩
        · exact .inl (by simp [hrest])
      | dir => exact ih (place ++ [name])
      | closed fault => exact ih (place ++ [name])
      | file content => exact ih (place ++ [name])
      | sealed fault => exact ih (place ++ [name])

theorem follow_unfollowed (links : Nat) (place : Location) (names : List Bytes) :
    disk.follow ⟨false, false⟩ links place names = disk.follow ⟨true, false⟩ links place names ∨
      ∃ found, disk.follow ⟨false, false⟩ links place names = .ok found ∧ disk.IsLinkAt found := by
  induction links generalizing place names with
  | zero => exact .inl rfl
  | succ links ih =>
    rw [follow, follow]
    rcases disk.walkNames_unfollowed place names with hsame | ⟨found, hwalk, hlink⟩
    · rw [hsame]
      split
      · exact .inl rfl
      · exact .inl rfl
      · exact ih _ _
    · rw [hwalk]
      exact .inr ⟨found, rfl, hlink⟩

/-- A path leads to the same place whether or not a link at its end is followed, unless there is
one. -/
theorem locate_unfollowed (disk : Disk) (p : Path) :
    disk.locate ⟨false, false⟩ p = disk.locate ⟨true, false⟩ p ∨
      ∃ found, disk.locate ⟨false, false⟩ p = .ok found ∧ disk.IsLinkAt found := by
  rw [locate, locate, search, search]
  split
  · exact .inl rfl
  split
  · exact .inl rfl
  split
  · exact .inl rfl
  exact disk.follow_unfollowed _ _ _

/-- **What stands at a path** is what the path leads to, or a link. -/
theorem linkStat_eq_stat_or (disk : Disk) (p : Path) :
    disk.linkStat p = disk.stat p ∨ ∃ target, disk.linkStat p = .ok (.link target) := by
  rw [linkStat, stat]
  rcases disk.locate_unfollowed p with hsame | ⟨found, hfound, target, hlink⟩
  · rw [hsame]
    exact .inl rfl
  · rw [hfound]
    exact .inr ⟨target, entryAt_eq_ok.2 hlink⟩

/-- Whether a directory stands at a path itself, open or closed. -/
def hasDirAt (disk : Disk) (p : Path) : Bool :=
  match disk.linkStat p with
  | .ok entry => entry.isDir
  | .error _ => false

theorem hasDirAt_iff :
    disk.hasDirAt p = true ↔ ∃ entry, disk.linkStat p = .ok entry ∧ entry.isDir = true := by
  rw [hasDirAt]
  cases disk.linkStat p <;> simp

/-- What stands at a path where a directory stands is what the path leads to. -/
theorem stat_of_linkStat {entry : Entry} (h : disk.linkStat p = .ok entry)
    (hdir : entry.isDir = true) : disk.stat p = .ok entry := by
  rcases disk.linkStat_eq_stat_or p with hsame | ⟨target, hlink⟩
  · rw [← hsame, h]
  · rw [h] at hlink
    cases hlink
    cases hdir

/-- A path where a directory stands leads there. -/
theorem isDir_of_hasDirAt (h : disk.hasDirAt p = true) : disk.isDir p = true := by
  obtain ⟨entry, hentry, hdir⟩ := hasDirAt_iff.1 h
  exact isDir_iff_stat.2 ⟨entry, stat_of_linkStat hentry hdir, hdir⟩

/-! ## How a walk starts -/

/-- **How a walk starts**: at what stands at its path, and then it goes on where the path leads. -/
theorem walk_eq_ok {w : Walk} : disk.walk p = .ok w ↔
    ∃ stands base entry, disk.linkStat p = .ok stands ∧ disk.locate ⟨true, false⟩ p = .ok base ∧
      disk.entry? base = some entry ∧ w = disk.enter ⟨p, stands.isDir⟩ base entry := by
  simp only [walk, bind_eq_ok, entryAt_eq_ok, pure, Except.pure, Except.ok.injEq,
    exists_and_left, @eq_comm _ w]

theorem mem_visits_enter {first v : Visit} {base : Location} {entry : Entry} :
    v ∈ (disk.enter first base entry).visits ↔
      v = first ∨ entry = .dir ∧ v ∈ disk.visitsBelow first.path base := by
  rw [enter]
  by_cases hdir : entry = .dir <;> simp [hdir]

/-- A path can be visited if it leads somewhere, and the walk stops there if that is a closed
directory. -/
theorem exists_walk_of_stat {entry : Entry} (h : disk.stat p = .ok entry) :
    ∃ w, disk.walk p = .ok w ∧ w.fault? = entry.closedBy? := by
  obtain ⟨base, hbase, hentry⟩ := bind_eq_ok.1 h
  obtain ⟨stands, hstands⟩ : ∃ stands, disk.linkStat p = .ok stands := by
    rcases disk.linkStat_eq_stat_or p with hsame | ⟨target, hlink⟩
    · exact ⟨entry, hsame.trans h⟩
    · exact ⟨_, hlink⟩
  exact ⟨_, walk_eq_ok.2 ⟨stands, base, entry, hstands, hbase, entryAt_eq_ok.1 hentry, rfl⟩, rfl⟩

/-- A path that leads nowhere cannot be visited. -/
theorem walk_of_stat_error {fault : Fault} (h : disk.stat p = .error fault) :
    disk.walk p = .error fault := by
  rcases disk.linkStat_eq_stat_or p with hsame | ⟨target, hlink⟩
  · rw [walk, hsame, h]
    rfl
  · rw [walk, hlink]
    rw [stat] at h
    cases hbase : disk.locate ⟨true, false⟩ p with
    | error other =>
      rw [hbase] at h
      cases h
      rfl
    | ok base =>
      rw [hbase] at h
      have hentry : disk.entryAt base = .error fault := h
      simp only [bind, Except.bind, hentry]

/-- A directory is listed by the walk that starts at it. -/
theorem mem_directories_self (h : disk.hasDirAt p = true) : p ∈ disk.directories p true := by
  obtain ⟨entry, hstands, hdir⟩ := hasDirAt_iff.1 h
  obtain ⟨base, hbase, hentry⟩ := bind_eq_ok.1 (stat_of_linkStat hstands hdir)
  have hwalk := walk_eq_ok.2 ⟨entry, base, entry, hstands, hbase, entryAt_eq_ok.1 hentry, rfl⟩
  rw [directories, hwalk]
  simp [enter, hdir]

/-! ## Where a walk goes on -/

section Roots

variable {root : Path} {roots : List Path} {fault : Fault}

/-- Why a walk cannot go on at a root: the root leads nowhere, or to a directory that cannot be
entered. -/
def walkFault? (disk : Disk) (root : Path) : Option Fault :=
  match disk.stat root with
  | .error fault => some fault
  | .ok entry => entry.closedBy?

/-- The root leads to something, and not to a directory that cannot be entered. -/
def CanWalk (disk : Disk) (root : Path) : Prop := disk.walkFault? root = none

instance (disk : Disk) (root : Path) : Decidable (disk.CanWalk root) :=
  inferInstanceAs (Decidable (_ = _))

theorem canWalk_iff :
    disk.CanWalk root ↔ ∃ entry, disk.stat root = .ok entry ∧ entry.closedBy? = none := by
  rw [CanWalk, walkFault?]
  cases disk.stat root <;> simp

/-- Either a root cannot be visited, or the walk says why it cannot go on there. -/
theorem walk_cases (disk : Disk) (root : Path) :
    (∃ fault, disk.walk root = .error fault ∧ disk.walkFault? root = some fault) ∨
      ∃ w, disk.walk root = .ok w ∧ disk.walkFault? root = w.fault? := by
  rw [walkFault?]
  cases hstat : disk.stat root with
  | error fault => exact .inl ⟨fault, walk_of_stat_error hstat, rfl⟩
  | ok entry =>
    obtain ⟨w, hwalk, hfault⟩ := exists_walk_of_stat hstat
    exact .inr ⟨w, hwalk, hfault.symm⟩

theorem CanWalk.exists_walk (h : disk.CanWalk root) :
    ∃ w, disk.walk root = .ok w ∧ w.fault? = none := by
  rcases disk.walk_cases root with ⟨fault, -, hfault⟩ | ⟨w, hwalk, hfault⟩
  · rw [CanWalk, hfault] at h
    cases h
  · exact ⟨w, hwalk, hfault.symm.trans h⟩

/-- The first root at which a walk cannot go on, and why. -/
def stop? (disk : Disk) (roots : List Path) : Option (Path × Fault) :=
  roots.findSome? fun root => (disk.walkFault? root).map fun fault => (root, fault)

theorem stop?_eq_none : disk.stop? roots = none ↔ ∀ root ∈ roots, disk.CanWalk root := by
  simp only [stop?, List.findSome?_eq_none_iff, Option.map_eq_none_iff, CanWalk]

theorem stop?_eq_some : disk.stop? roots = some (root, fault) ↔
    ∃ before after, roots = before ++ root :: after ∧ disk.walkFault? root = some fault ∧
      ∀ r ∈ before, disk.CanWalk r := by
  simp only [stop?, List.findSome?_eq_some_iff, Option.map_eq_some_iff, Option.map_eq_none_iff,
    Prod.mk.injEq, CanWalk]
  constructor
  · rintro ⟨before, found, after, rfl, ⟨other, hfault, rfl, rfl⟩, hbefore⟩
    exact ⟨before, after, rfl, hfault, hbefore⟩
  · rintro ⟨before, after, rfl, hfault, hbefore⟩
    exact ⟨before, root, after, rfl, ⟨fault, hfault, rfl, rfl⟩, hbefore⟩

end Roots

/-! ## Going on -/

variable {last : LastName} {base place found : Location} {names more : List Bytes}

/-- **Where a path leads**: its names are searched, if the system takes the path. -/
theorem locate_eq_ok : disk.locate last p = .ok place ↔
    0 ∉ p.bytes ∧ p.bytes.length ≤ maxPath ∧ p.bytes ≠ [] ∧
      disk.follow last (maxLinks + 1) (if p.isAbsolute then [] else disk.working)
        (splitNames p.bytes) = .ok place := by
  rw [locate, search]
  by_cases hnul : 0 ∈ p.bytes
  · simp [hnul]
  by_cases hlong : maxPath < p.bytes.length
  · simp [hnul, hlong, Nat.not_le.2 hlong]
  by_cases hnil : p.bytes = []
  · simp [hnil]
  · simp [hnul, hlong, hnil, Nat.not_lt.1 hlong]

/-- **A longer walk** goes the way of its first part, on which every link has to be followed. -/
theorem walkNames_append (hmore : more ≠ []) :
    disk.walkNames last base (names ++ more) =
      match disk.walkNames ⟨true, false⟩ base names with
      | .error fault => .error fault
      | .ok (.arrived place) => disk.walkNames last place more
      | .ok (.linked up target rest) => .ok (.linked up target (rest ++ more)) := by
  induction names generalizing base with
  | nil => rfl
  | cons name names ih =>
    rw [List.cons_append, walkNames, walkNames]
    split
    · split
      · exact ih
      · rfl
    split
    · rfl
    split
    · exact ih
    split
    · exact ih
    split
    · rfl
    dsimp only
    cases hnext : disk.entry? (base ++ [name]) with
    | none => simp [hmore]
    | some entry =>
      cases entry with
      | link target => simp [hmore]
      | dir => exact ih
      | closed fault => exact ih
      | file content => exact ih
      | sealed fault => exact ih

/-- **A search for a longer path** goes on from where the search for its beginning led. -/
theorem follow_append {links : Nat} (hmore : more ≠ [])
    (h : disk.follow ⟨true, false⟩ links base names = .ok place)
    (hwalk : disk.walkNames last place more = .ok (.arrived found)) :
    disk.follow last links base (names ++ more) = .ok found := by
  induction links generalizing base names with
  | zero => cases h
  | succ links ih =>
    rw [follow] at h ⊢
    rw [walkNames_append hmore]
    cases hfirst : disk.walkNames ⟨true, false⟩ base names with
    | error fault =>
      rw [hfirst] at h
      cases h
    | ok stop =>
      rw [hfirst] at h
      cases stop with
      | arrived middle =>
        cases h
        dsimp only
        rw [hwalk]
      | linked up target rest =>
        dsimp only at h ⊢
        rw [← List.append_assoc]
        exact ih h

/-- A blank name at the end changes nothing about where a search leads. -/
theorem follow_of_blank {links : Nat}
    (h : disk.follow ⟨true, false⟩ links base (names ++ [[]]) = .ok place) :
    disk.follow ⟨true, false⟩ links base names = .ok place := by
  induction links generalizing base names with
  | zero => cases h
  | succ links ih =>
    rw [follow, walkNames_append (by simp)] at h
    rw [follow]
    cases hfirst : disk.walkNames ⟨true, false⟩ base names with
    | error fault =>
      rw [hfirst] at h
      cases h
    | ok stop =>
      rw [hfirst] at h
      cases stop with
      | arrived middle =>
        dsimp only at h
        rw [walkNames, if_pos rfl] at h
        by_cases hdir : disk.isDirAt middle = true
        · simpa [hdir, walkNames] using h
        · simp [hdir] at h
      | linked up target rest =>
        dsimp only at h ⊢
        rw [← List.append_assoc] at h
        exact ih h

end Disk

end CertRotation
