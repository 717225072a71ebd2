import CertRotation.Proofs.Disk.Edit

/-!
# A directory whose files come and go

Files may be written and removed in a directory without harm to the directory: it can still be
walked, and no place in it where a file may stand ever becomes a directory or a link.

* `StandingDir` — a directory in a tree whose path the system takes;
* `StandingDir.walk_eq` — walking it succeeds;
* `StandingDir.write` and `StandingDir.removeFile` — it stands whatever files come and go in it.
-/

set_option autoImplicit false

namespace CertRotation

/-- A file may stand at `place`: neither a directory nor a link does. -/
structure Disk.IsFilePlace (disk : Disk) (place : Location) : Prop where
  isDirAt_eq_false : disk.isDirAt place = false
  ne_link : ∀ target, disk.entry? place ≠ some (.link target)

/-- A directory in a tree whose path the system takes. -/
structure StandingDir (disk : Disk) (root : Location) : Prop where
  isTree : disk.IsTree
  isName : ∀ n ∈ root, IsName n
  isDir : disk.entry? root = some .dir
  length_le : (Disk.pathOf root).bytes.length ≤ Disk.maxPath

namespace StandingDir

variable {disk disk' : Disk} {root : Location} {name : Bytes}

theorem isReachable (h : StandingDir disk root) : disk.IsReachable root :=
  h.isTree root (by rw [h.isDir]; rfl)

theorem linkFree_concat (h : StandingDir disk root)
    (hplace : ∀ target, disk.entry? (root ++ [name]) ≠ some (.link target)) :
    disk.LinkFree (root ++ [name]) := by
  intro base hbase target hlink
  rcases List.prefix_concat_iff.1 hbase with rfl | hbase
  · exact hplace target hlink
  · exact h.isTree.linkFree h.isDir base hbase target hlink

theorem isName_concat (h : StandingDir disk root) (hname : IsName name) :
    ∀ n ∈ root ++ [name], IsName n := by
  intro n hn
  rcases List.mem_append.1 hn with hn | hn
  · exact h.isName n hn
  · rw [List.mem_singleton.1 hn]
    exact hname

/-- **Walking the directory succeeds.** -/
theorem walk_eq (h : StandingDir disk root) : disk.walk (Disk.pathOf root) =
    .ok ⟨⟨Disk.pathOf root, true⟩ :: disk.visitsBelow (Disk.pathOf root) root, none⟩ :=
  Disk.walk_pathOf h.isName (h.isTree.linkFree h.isDir) h.length_le h.isReachable h.isDir

theorem isDir_eq_false (h : StandingDir disk root) (hname : IsName name)
    (hplace : disk.IsFilePlace (root ++ [name])) :
    disk.isDir (filePath root [name]) = false := by
  rw [← Bool.not_eq_true, filePath,
    Disk.isDir_pathOf (h.isName_concat hname) (h.linkFree_concat hplace.ne_link)]
  rintro ⟨-, -, hdir⟩
  exact Bool.false_ne_true (hplace.isDirAt_eq_false.symm.trans hdir)

/-- A disk that differs in one place, where a file may stand before and after. -/
theorem edit {place : Location} {entry : Option Entry} (h : StandingDir disk root)
    (hentry : ∀ q, disk'.entry? q = if q = place then entry else disk.entry? q)
    (hold : disk.isDirAt place = false) (hup : entry.isSome → disk.IsReachable place)
    (hnew : entry.any Entry.isDir = false ∧ ∀ target, entry ≠ some (.link target)) :
    StandingDir disk' root ∧ ∀ q, disk.IsFilePlace q → disk'.IsFilePlace q := by
  have hdir : disk.SameDirs disk' := by
    refine Disk.sameDirs_of_isDirAt fun q => ?_
    by_cases hq : q = place
    · rw [hq]
      exact .inr ⟨hold, by rw [Disk.isDirAt, hentry, if_pos rfl]; exact hnew.1⟩
    · exact .inl (by rw [hentry, if_neg hq])
  refine ⟨⟨fun q hq => ?_, h.isName, (hdir root .dir rfl).2 h.isDir, h.length_le⟩,
    fun q hq => ?_⟩
  · rw [hentry] at hq
    split at hq
    · rename_i hplace
      rw [hplace]
      exact hdir.isReachable (hup hq)
    · exact hdir.isReachable (h.isTree q hq)
  · refine ⟨?_, fun target e => ?_⟩
    · rw [Disk.isDirAt, hentry]
      split
      · exact hnew.1
      · exact hq.isDirAt_eq_false
    · rw [hentry] at e
      split at e
      · exact hnew.2 target e
      · exact hq.ne_link target e

/-- **A directory stands when a file is written in it.** -/
theorem write (h : StandingDir disk root) (hname : IsName name)
    (hplace : disk.IsFilePlace (root ++ [name])) {data : Bytes}
    (hw : disk.write (filePath root [name]) data = .ok disk') :
    StandingDir disk' root ∧ ∀ q, disk.IsFilePlace q → disk'.IsFilePlace q := by
  obtain ⟨-, hup, hnot, hentry⟩ := Disk.write_pathOf (by simp) (h.isName_concat hname)
    (h.linkFree_concat hplace.ne_link) hw
  exact h.edit hentry hnot (fun _ => hup) ⟨rfl, nofun⟩

/-- **A directory stands when a file in it is removed.** -/
theorem removeFile (h : StandingDir disk root) (hname : IsName name)
    (hplace : disk.IsFilePlace (root ++ [name]))
    (hr : disk.removeFile (filePath root [name]) = .ok disk') :
    StandingDir disk' root ∧ ∀ q, disk.IsFilePlace q → disk'.IsFilePlace q := by
  obtain ⟨-, hnot, hentry⟩ := Disk.removeFile_pathOf h.isTree (by simp) (h.isName_concat hname)
    (h.linkFree_concat hplace.ne_link) hr
  exact h.edit hentry hnot (by simp) (by simp)

end StandingDir

end CertRotation
