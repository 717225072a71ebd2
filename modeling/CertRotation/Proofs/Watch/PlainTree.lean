import CertRotation.Proofs.Disk.Edit
import CertRotation.Proofs.Watch.Loading

/-!
# Trees of plain files

What a loader can be expected to follow is a directory below which there are only directories and
files with content, all with readable names, and marked names with a single mark.  The directories
below it may be closed.

* `PlainTree` — the tree below a directory, `FileNames` the names that lead to a file in it;
* `PlainTree.content?_iff` — what there is to load is what stands at the place;
* `PlainTree.edit` — files may come and go as long as the directories stay;
* `PlainTree.supply?_unmarked`, `PlainTree.exists_of_supply?` — where a loader that goes by the full
  path finds what a file supplies: at the file, or at the file without the mark.
-/

set_option autoImplicit false

namespace CertRotation

/-- The names that lead from a directory to a file below it: all are readable, and the last does not
end in two marks. -/
structure FileNames (names : Location) : Prop where
  ne_nil : names ≠ []
  isName : ∀ n ∈ names, IsName n
  readable : ∀ n ∈ names, (Utf8.decode? n).isSome
  mark : ∀ n ∈ names.getLast?, ¬ [tilde, tilde] <:+ n

instance (names : Location) : Decidable (FileNames names) :=
  decidable_of_iff
    (names ≠ [] ∧ (∀ n ∈ names, IsName n) ∧ (∀ n ∈ names, (Utf8.decode? n).isSome) ∧
      ∀ n ∈ names.getLast?, ¬ [tilde, tilde] <:+ n)
    ⟨fun h => ⟨h.1, h.2.1, h.2.2.1, h.2.2.2⟩, fun h => ⟨h.1, h.2, h.3, h.4⟩⟩

/-- A tree with only directories and files with content below the directory at `root`. -/
structure PlainTree (disk : Disk) (root : Location) : Prop where
  isTree : disk.IsTree
  isName : ∀ n ∈ root, IsName n
  isDir : disk.entry? root = some .dir
  below : ∀ names entry, names ≠ [] → disk.entry? (root ++ names) = some entry →
    (∀ n ∈ names, IsName n) ∧
      (entry.isDir = true ∨ FileNames names ∧ ∃ content, content ≠ [] ∧ entry = .file content)

namespace PlainTree

variable {disk disk' : Disk} {root names : Location}

theorem linkFree (h : PlainTree disk root) (names : Location) : disk.LinkFree (root ++ names) := by
  intro base hbase target hlink
  rcases List.prefix_or_prefix_of_prefix hbase (List.prefix_append root names) with
    hbase | ⟨below, rfl⟩
  · exact h.isTree.linkFree h.isDir base hbase target hlink
  · rcases eq_or_ne below [] with rfl | hne
    · rw [List.append_nil, h.isDir] at hlink
      cases hlink
    · rcases (h.below below _ hne hlink).2 with hdir | ⟨-, content, -, hfile⟩
      · cases hdir
      · cases hfile

theorem isName_append (h : PlainTree disk root) (hn : ∀ n ∈ names, IsName n) :
    ∀ n ∈ root ++ names, IsName n := by
  intro n hmem
  rcases List.mem_append.1 hmem with hmem | hmem
  · exact h.isName n hmem
  · exact hn n hmem

/-- **What there is to load is what stands there.** -/
theorem content?_iff (h : PlainTree disk root) (hn : ∀ n ∈ names, IsName n) {content : Bytes} :
    disk.content? (filePath root names) = some content ↔
      (filePath root names).bytes.length ≤ Disk.maxPath ∧ disk.IsReachable (root ++ names) ∧
        disk.entry? (root ++ names) = some (.file content) ∧ content ≠ [] := by
  rw [Disk.content?_eq_some, filePath, Disk.read_pathOf (h.isName_append hn) (h.linkFree names)]
  simp only [and_assoc]

/-! ## Files come and go -/

/-- **Files may come and go** in reachable places as long as the directories stay.  What there is to
load in other places stays. -/
theorem edit (h : PlainTree disk root) (places : List Location)
    (hsame : ∀ q ∉ places, disk'.entry? q = disk.entry? q)
    (hold : ∀ q ∈ places, disk.isDirAt q = false)
    (hnew : ∀ q ∈ places, disk'.entry? q = none ∨ disk.IsReachable q ∧ ∃ names content,
      FileNames names ∧ q = root ++ names ∧ content ≠ [] ∧
        disk'.entry? q = some (.file content)) :
    PlainTree disk' root ∧ disk.SameDirs disk' ∧
      ∀ other, (∀ n ∈ other, IsName n) → root ++ other ∉ places →
        disk'.content? (filePath root other) = disk.content? (filePath root other) := by
  have hdir : disk.SameDirs disk' := by
    refine Disk.sameDirs_of_isDirAt fun q => ?_
    by_cases hq : q ∈ places
    · refine .inr ⟨hold q hq, ?_⟩
      rcases hnew q hq with hnone | ⟨-, names, content, -, -, -, hfile⟩
      · rw [Disk.isDirAt, hnone]
        rfl
      · rw [Disk.isDirAt, hfile]
        rfl
    · exact .inl (hsame q hq)
  have htree : PlainTree disk' root := by
    refine ⟨fun q hsome => ?_, h.isName, (hdir root .dir rfl).2 h.isDir,
      fun names entry hne hentry => ?_⟩
    · by_cases hq : q ∈ places
      · rcases hnew q hq with hnone | ⟨hup, -⟩
        · rw [hnone] at hsome
          cases hsome
        · exact hdir.isReachable hup
      · rw [hsame q hq] at hsome
        exact hdir.isReachable (h.isTree q hsome)
    · by_cases hq : root ++ names ∈ places
      · rcases hnew _ hq with hnone | ⟨-, names', content, hnames, heq, hcontent, hfile⟩
        · rw [hnone] at hentry
          cases hentry
        · rw [List.append_cancel_left_eq] at heq
          subst heq
          rw [hfile] at hentry
          exact ⟨hnames.isName, .inr ⟨hnames, content, hcontent, (Option.some.inj hentry).symm⟩⟩
      · rw [hsame _ hq] at hentry
        exact h.below names entry hne hentry
  refine ⟨htree, hdir, fun other hother hnot => Option.ext fun content => ?_⟩
  have hreach : disk'.IsReachable (root ++ other) ↔ disk.IsReachable (root ++ other) :=
    ⟨hdir.symm.isReachable, hdir.isReachable⟩
  rw [htree.content?_iff hother, h.content?_iff hother, hsame _ hnot, hreach]

/-- There is nothing to load where nothing stands. -/
theorem content?_eq_none (h : PlainTree disk root) (hn : ∀ n ∈ names, IsName n)
    (hentry : disk.entry? (root ++ names) = none) :
    disk.content? (filePath root names) = none := by
  rw [Option.eq_none_iff_forall_ne_some]
  intro content hcontent
  obtain ⟨-, -, hfile, -⟩ := (h.content?_iff hn).1 hcontent
  rw [hentry] at hfile
  cases hfile

/-- **What becomes of a plain tree when a file is written.** -/
theorem write (h : PlainTree disk root) (hn : FileNames names) {data : Bytes} (hdata : data ≠ [])
    (hw : disk.write (filePath root names) data = .ok disk') :
    PlainTree disk' root ∧ disk.SameDirs disk' ∧
      disk.isDirAt (root ++ names) = false ∧
      disk'.content? (filePath root names) = some data ∧
      ∀ other, (∀ n ∈ other, IsName n) → other ≠ names →
        disk'.content? (filePath root other) = disk.content? (filePath root other) := by
  have hne : root ++ names ≠ [] := by simp [hn.ne_nil]
  obtain ⟨hle, hup, hnot, hentry⟩ :=
    Disk.write_pathOf hne (h.isName_append hn.isName) (h.linkFree names) hw
  have hfile : disk'.entry? (root ++ names) = some (.file data) := by rw [hentry, if_pos rfl]
  obtain ⟨htree, hdir, hrest⟩ := h.edit [root ++ names]
    (fun q hq => by rw [hentry, if_neg (by simpa using hq)])
    (fun q hq => by rwa [List.mem_singleton.1 hq])
    (fun q hq => .inr (by
      rw [List.mem_singleton.1 hq]
      exact ⟨hup, names, data, hn, rfl, hdata, hfile⟩))
  refine ⟨htree, hdir, hnot, ?_, fun other hother hne => hrest other hother (by simpa using hne)⟩
  exact (htree.content?_iff hn.isName).2 ⟨hle, hdir.isReachable hup, hfile, hdata⟩

/-- **What becomes of a plain tree when a file is removed.** -/
theorem removeFile (h : PlainTree disk root) (hn : FileNames names)
    (hr : disk.removeFile (filePath root names) = .ok disk') :
    PlainTree disk' root ∧ disk.SameDirs disk' ∧
      disk.isDirAt (root ++ names) = false ∧
      disk'.content? (filePath root names) = none ∧
      ∀ other, (∀ n ∈ other, IsName n) → other ≠ names →
        disk'.content? (filePath root other) = disk.content? (filePath root other) := by
  have hne : root ++ names ≠ [] := by simp [hn.ne_nil]
  obtain ⟨-, hnot, hentry⟩ :=
    Disk.removeFile_pathOf h.isTree hne (h.isName_append hn.isName) (h.linkFree names) hr
  have hnone : disk'.entry? (root ++ names) = none := by rw [hentry, if_pos rfl]
  obtain ⟨htree, hdir, hrest⟩ := h.edit [root ++ names]
    (fun q hq => by rw [hentry, if_neg (by simpa using hq)])
    (fun q hq => by rwa [List.mem_singleton.1 hq])
    (fun q hq => .inl (by rwa [List.mem_singleton.1 hq]))
  refine ⟨htree, hdir, hnot, ?_, fun other hother hne => hrest other hother (by simpa using hne)⟩
  exact htree.content?_eq_none hn.isName hnone

/-- **What becomes of a plain tree when a file is renamed**, possibly over another file. -/
theorem rename {source target : Location} (h : PlainTree disk root) (hs : FileNames source)
    (ht : FileNames target) (hne : source ≠ target)
    (hfile : disk.isDirAt (root ++ source) = false)
    (hr : disk.rename (filePath root source) (filePath root target) = .ok disk') :
    PlainTree disk' root ∧ disk.SameDirs disk' ∧
      disk.isDirAt (root ++ target) = false ∧
      disk'.content? (filePath root source) = none ∧
      (disk'.content? (filePath root target)).isSome ∧
      ∀ other, (∀ n ∈ other, IsName n) → other ≠ source → other ≠ target →
        disk'.content? (filePath root other) = disk.content? (filePath root other) := by
  have hsne : root ++ source ≠ [] := by simp [hs.ne_nil]
  have htne : root ++ target ≠ [] := by simp [ht.ne_nil]
  have hplaces : root ++ source ≠ root ++ target := by simpa using hne
  obtain ⟨⟨-, hsome⟩, ⟨hle, hup⟩, hnot, hentry⟩ :=
    Disk.rename_pathOf h.isTree hsne htne (h.isName_append hs.isName) (h.isName_append ht.isName)
      (h.linkFree source) (h.linkFree target) hplaces hfile hr
  obtain ⟨entry, hsource⟩ := Option.isSome_iff_exists.1 hsome
  obtain ⟨content, hcontent, rfl⟩ : ∃ content, content ≠ [] ∧ entry = .file content := by
    rcases (h.below source entry hs.ne_nil hsource).2 with hdir | ⟨-, hplain⟩
    · exact absurd hsource (Disk.ne_of_isDirAt hfile hdir)
    · exact hplain
  have hgone : disk'.entry? (root ++ source) = none := by
    rw [hentry, if_neg hplaces, if_pos rfl]
  have hthere : disk'.entry? (root ++ target) = some (.file content) := by
    rw [hentry, if_pos rfl, hsource]
  obtain ⟨htree, hdir, hrest⟩ := h.edit [root ++ source, root ++ target]
    (fun q hq => by
      obtain ⟨hqs, hqt⟩ : q ≠ root ++ source ∧ q ≠ root ++ target := by simpa using hq
      rw [hentry, if_neg hqt, if_neg hqs])
    (List.forall_mem_cons.2 ⟨hfile, List.forall_mem_singleton.2 hnot⟩)
    (List.forall_mem_cons.2 ⟨.inl hgone, List.forall_mem_singleton.2 (.inr
      ⟨hup, target, content, ht, rfl, hcontent, hthere⟩)⟩)
  refine ⟨htree, hdir, hnot, htree.content?_eq_none hs.isName hgone, ?_,
    fun other hother hns hnt => hrest other hother (by simpa using ⟨hns, hnt⟩)⟩
  rw [(htree.content?_iff ht.isName).2 ⟨hle, hdir.isReachable hup, hthere, hcontent⟩]
  rfl

end PlainTree

/-! ## Loading from a plain tree -/

namespace Loader

/-- The loader keeps files under their full paths and knows staged copies by the usual mark. -/
structure IsUsual (l : Loader) : Prop where
  strategy : l.resolver.strategy = .fullPath
  marker : l.marker = some Pattern.finalTilde
  ops : l.ops = LoaderConfig.usualOps

variable {disk : Disk} {l : Loader} {root names : Location}

theorem IsUsual.key? (hl : l.IsUsual) (p : Path) : l.resolver.key? p = some p.text := by
  rw [KeyResolver.key?, hl.strategy]

/-- **A file without a mark** supplies its own content. -/
theorem IsUsual.supply?_unmarked (hl : l.IsUsual) {p : Path} (hp : ¬ p.IsMarked) :
    l.supply? disk p = (disk.content? p).map fun content => (p.text, content) := by
  rw [supply?, hl.key?, Option.bind_some, staged?_eq_none hl.marker hp, Option.getD_none]

theorem IsUsual.supply?_marked (hl : l.IsUsual) {front : Bytes}
    (hfront : (Utf8.decode? front).isSome) :
    l.supply? disk ⟨front ++ [tilde]⟩ =
      (disk.content? ⟨front⟩).map fun content => (Path.text ⟨front⟩, content) := by
  have htext : Path.text ⟨front ++ [tilde]⟩ = Path.text ⟨front⟩ ++ ['~'] := lossy_tilde front
  rw [supply?, hl.key?, Option.bind_some, htext, staged?_tilde hl.marker hfront, Option.getD_some]

/-- The file that a marked file stands for, if its path can lead to a file at all. -/
theorem exists_unmarked (hn : FileNames names) {front : Bytes}
    (hp : filePath root names = ⟨front ++ [tilde]⟩) :
    (∃ home, FileNames home ∧ filePath root home = ⟨front⟩ ∧ front.getLast? ≠ some tilde) ∨
      ∃ stem n, front = stem ++ separator :: n ∧ Disk.LeadsToDir n ∧ separator ∉ n := by
  obtain ⟨up, name, rfl⟩ := (List.eq_nil_or_concat' names).resolve_left hn.ne_nil
  have hname := hn.isName name (by simp)
  obtain ⟨n, b, rfl⟩ := (List.eq_nil_or_concat' name).resolve_left hname.ne_nil
  rw [filePath_concat, Path.mk.injEq, ← List.cons_append, ← List.append_assoc] at hp
  obtain ⟨rfl, hb⟩ := List.append_inj' hp rfl
  obtain rfl : b = tilde := by simpa using hb
  have hsep : separator ∉ n := fun h => hname.separator_notMem (by simp [h])
  by_cases hlead : Disk.LeadsToDir n
  · exact .inr ⟨_, n, rfl, hlead, hsep⟩
  rw [Disk.LeadsToDir, not_or, not_or] at hlead
  have hlast : n.getLast? ≠ some tilde := by
    intro h
    obtain ⟨more, rfl⟩ := List.getLast?_eq_some_iff.1 h
    exact hn.mark (more ++ [tilde] ++ [tilde]) (by simp) ⟨more, by simp⟩
  have hn' : IsName n := {
    ne_nil := hlead.1
    ne_dot := hlead.2.1
    ne_dotDot := hlead.2.2
    separator_notMem := hsep
    nul_notMem := fun h => hname.nul_notMem (by simp [h])
    length_le := by
      have hlen := hname.length_le
      rw [List.length_append] at hlen
      omega }
  have htext : (Utf8.decode? n).isSome := by
    have h := hn.readable (n ++ [tilde]) (by simp)
    rwa [decode?_tilde, Option.isSome_map] at h
  refine .inl ⟨up ++ [n], ?_, filePath_concat root up n, ?_⟩
  · refine ⟨by simp, fun m hm => ?_, fun m hm => ?_, fun m hm hmark => ?_⟩
    · rcases List.mem_append.1 hm with hm | hm
      · exact hn.isName m (by simp [hm])
      · rwa [List.mem_singleton.1 hm]
    · rcases List.mem_append.1 hm with hm | hm
      · exact hn.readable m (by simp [hm])
      · rwa [List.mem_singleton.1 hm]
    · obtain rfl : n = m := by simpa using hm
      obtain ⟨more, rfl⟩ := hmark
      exact hlast (by simp)
  · obtain ⟨more, last, rfl⟩ := (List.eq_nil_or_concat' n).resolve_left hlead.1
    rw [List.getLast?_concat] at hlast
    rw [← List.cons_append, ← List.append_assoc, List.getLast?_concat]
    exact hlast

/-- **Whatever a file supplies is the content of a file without a mark**, under its path. -/
theorem IsUsual.exists_of_supply? (hl : l.IsUsual) (tree : PlainTree disk root)
    (hn : FileNames names) {key : Key} {content : Bytes}
    (h : l.supply? disk (filePath root names) = some (key, content)) :
    ∃ home, FileNames home ∧ ¬ (filePath root home).IsMarked ∧
      key = (filePath root home).text ∧ disk.content? (filePath root home) = some content := by
  by_cases hmark : (filePath root names).IsMarked
  · obtain ⟨front, hfront, htext⟩ := Path.isMarked_iff.1 hmark
    rw [hfront, hl.supply?_marked htext, Option.map_eq_some_iff] at h
    obtain ⟨found, hfound, h⟩ := h
    cases h
    rcases exists_unmarked hn hfront with ⟨home, hhome, hpath, hlast⟩ | ⟨stem, n, rfl, hlead, hsep⟩
    · rw [← hpath] at hfound ⊢
      refine ⟨home, hhome, fun h => hlast ?_, rfl, hfound⟩
      rw [← h.2, hpath]
    · rw [Disk.content?_eq_some] at hfound
      exact absurd hfound.1 (Disk.read_leadsToDir tree.isTree hlead hsep)
  · rw [hl.supply?_unmarked hmark, Option.map_eq_some_iff] at h
    obtain ⟨found, hfound, h⟩ := h
    cases h
    exact ⟨names, hn, hmark, rfl, hfound⟩

/-! ## The changes a loader follows -/

theorem IsUsual.isAny (hl : l.IsUsual) {op : Ops}
    (hop : op ∈ [Ops.create, .write] ++ [Ops.remove, .rename]) (p : Path) :
    (Change.mk p op).isAny l.ops = true := by
  have hall : ∀ op ∈ [Ops.create, .write] ++ [Ops.remove, .rename],
      op.meets LoaderConfig.usualOps = true := by decide
  rw [Change.isAny, hl.ops]
  exact hall op hop

/-- Kinds of change that load. -/
theorem IsUsual.handle_load (hl : l.IsUsual) {op : Ops} (hop : op ∈ [Ops.create, .write])
    (p : Path) :
    l.handle disk ⟨p, op⟩ = { l with store := l.store.insertAll (l.supply? disk p).toList } := by
  have hload : ∀ op ∈ [Ops.create, .write], op.meets (Ops.remove.union .rename) = false := by
    decide
  rw [handle, if_pos (hl.isAny (List.mem_append_left _ hop) p), apply_load (hload op hop)]

theorem IsUsual.handle_drop_eq (hl : l.IsUsual) {op : Ops} (hop : op ∈ [Ops.remove, .rename])
    (p : Path) :
    l.handle disk ⟨p, op⟩ =
      match l.staged? p p.text with
      | some _ => l
      | none => { l with store := l.store.erase p.text } := by
  have hdrop : ∀ op ∈ [Ops.remove, .rename], op.meets (Ops.remove.union .rename) = true := by
    decide
  rw [handle, if_pos (hl.isAny (List.mem_append_right _ hop) p), apply, hl.key?]
  exact if_pos (hdrop op hop)

/-- Kinds of change that drop. -/
theorem IsUsual.handle_drop (hl : l.IsUsual) {op : Ops} (hop : op ∈ [Ops.remove, .rename])
    {p : Path} (hp : ¬ p.IsMarked) :
    l.handle disk ⟨p, op⟩ = { l with store := l.store.erase p.text } := by
  rw [hl.handle_drop_eq hop, staged?_eq_none hl.marker hp]

/-- The departure of a marked file means nothing. -/
theorem IsUsual.handle_drop_marked (hl : l.IsUsual) {op : Ops} (hop : op ∈ [Ops.remove, .rename])
    {p : Path} (hp : p.IsMarked) : l.handle disk ⟨p, op⟩ = l := by
  obtain ⟨front, rfl, hfront⟩ := Path.isMarked_iff.1 hp
  have htext : Path.text ⟨front ++ [tilde]⟩ = Path.text ⟨front⟩ ++ ['~'] := lossy_tilde front
  rw [hl.handle_drop_eq hop, htext, staged?_tilde hl.marker hfront]

end Loader
end CertRotation
