import CertRotation.Proofs.Disk.Edit
import CertRotation.Proofs.Path.Order

/-!
# File trees

A disk of a system is a tree in which every place is listed once and every name is a proper one.
Links may take a path anywhere in it, and dots upwards.  Still a walk can only end at something that
stands in the tree or, where nothing need be there, at a name that is free in a directory of the
tree.  So whatever is made is made in a directory, and every absolute path that the system gives is
written in proper names.

* `Disk.IsNamed` — every place listed once and every name a proper one, `Disk.IsFileTree` — a tree
  like that, `Disk.IsFree` — a free name in it;
* `Disk.isLanding_of_search` — where a path leads;
* `Disk.exists_of_canonical` — the absolute path of what a path leads to;
* `Disk.exists_of_makeDir`, `Disk.IsFileTree.put` — a new directory, and the tree with it;
* `Disk.mem_directories` — the directories at and below a place.
-/

set_option autoImplicit false

namespace CertRotation

namespace Disk

/-- Every entry of the disk has a proper name and is listed once. -/
structure IsNamed (disk : Disk) : Prop where
  isName : ∀ e ∈ disk.entries, ∀ n ∈ e.1, IsName n
  nodup : (disk.entries.map Prod.fst).Nodup

instance (disk : Disk) : Decidable disk.IsNamed :=
  decidable_of_iff
    ((∀ e ∈ disk.entries, ∀ n ∈ e.1, IsName n) ∧ (disk.entries.map Prod.fst).Nodup)
    ⟨fun h => ⟨h.1, h.2⟩, fun h => ⟨h.1, h.2⟩⟩

/-- A disk as a system shows it: everything stands in an open directory, has a proper name and is
listed once. -/
structure IsFileTree (disk : Disk) : Prop extends IsNamed disk where
  isTree : disk.IsTree

instance (disk : Disk) : Decidable disk.IsFileTree :=
  decidable_of_iff (disk.IsNamed ∧ disk.IsTree) ⟨fun h => ⟨h.1, h.2⟩, fun h => ⟨h.1, h.2⟩⟩

/-- A proper name in a directory under which nothing stands. -/
structure IsFree (disk : Disk) (up : Location) (name : Bytes) : Prop where
  isName : IsName name
  isDir : disk.entry? up = some .dir
  free : disk.entry? (up ++ [name]) = none

/-- Where a walk can end: where something stands, or at a free name. -/
def IsLanding (disk : Disk) (place : Location) : Prop :=
  (disk.entry? place).isSome ∨ ∃ up name, place = up ++ [name] ∧ disk.IsFree up name

variable {disk : Disk} {place base : Location} {last : LastName} {names : List Bytes}

theorem IsFileTree.isName_of_isSome (tree : disk.IsFileTree) (h : (disk.entry? place).isSome) :
    ∀ n ∈ place, IsName n := by
  rcases eq_or_ne place [] with rfl | hne
  · simp
  · obtain ⟨entry, hmem⟩ := (entry?_isSome_iff hne).1 h
    exact tree.isName _ hmem

theorem IsFileTree.isName_of_dir (tree : disk.IsFileTree) (h : disk.entry? place = some .dir) :
    ∀ n ∈ place, IsName n :=
  tree.isName_of_isSome (by rw [h]; rfl)

theorem IsFileTree.isName_of_isDirAt (tree : disk.IsFileTree) (h : disk.isDirAt place = true) :
    ∀ n ∈ place, IsName n := by
  obtain ⟨entry, hentry, -⟩ := isDirAt_iff.1 h
  exact tree.isName_of_isSome (by rw [hentry]; rfl)

theorem IsFree.isName_concat (tree : disk.IsFileTree) {up : Location} {name : Bytes}
    (h : disk.IsFree up name) : ∀ n ∈ up ++ [name], IsName n := by
  intro n hn
  rcases List.mem_append.1 hn with hn | hn
  · exact tree.isName_of_dir h.isDir n hn
  · rw [List.mem_singleton.1 hn]
    exact h.isName

theorem IsLanding.isName (tree : disk.IsFileTree) (h : disk.IsLanding place) :
    ∀ n ∈ place, IsName n := by
  rcases h with hsome | ⟨up, name, rfl, hfree⟩
  · exact tree.isName_of_isSome hsome
  · exact hfree.isName_concat tree

/-! ## Walking along links -/

/-- Where nothing need stand at the end, a link there is not followed, and the last name holds no
byte that a name cannot hold. -/
def LastName.Allows (last : LastName) (names : List Bytes) : Prop :=
  last.optional → last.followed = false ∧ ∀ n ∈ names.getLast?, separator ∉ n ∧ 0 ∉ n

theorem LastName.Allows.suffix {rest : List Bytes} (h : last.Allows names)
    (hrest : last.followed = false → rest ≠ [] ∧ rest <:+ names) (front : List Bytes) :
    last.Allows (front ++ rest) := by
  intro hoptional
  obtain ⟨hfollowed, hlast⟩ := h hoptional
  obtain ⟨hne, hsuffix⟩ := hrest hfollowed
  refine ⟨hfollowed, fun n hn => hlast n ?_⟩
  rw [Option.mem_def] at hn ⊢
  rw [List.getLast?_append_of_ne_nil _ hne] at hn
  obtain ⟨before, rfl⟩ := hsuffix
  rw [List.getLast?_append_of_ne_nil _ hne, hn]

theorem LastName.Allows.tail {name : Bytes} {rest : List Bytes} (h : last.Allows (name :: rest)) :
    last.Allows rest := by
  intro hoptional
  obtain ⟨hfollowed, hlast⟩ := h hoptional
  refine ⟨hfollowed, fun n hn => hlast n ?_⟩
  rw [Option.mem_def] at hn ⊢
  rw [List.getLast?_cons, hn]
  rfl

/-- What a walk leaves to be done when it stops at a link that is not at its end. -/
theorem suffix_of_walkNames {up : Location} {target : Bytes} {rest : List Bytes}
    (hlast : last.followed = false)
    (h : disk.walkNames last base names = .ok (.linked up target rest)) :
    rest ≠ [] ∧ rest <:+ names := by
  induction names generalizing base with
  | nil => cases h
  | cons name names ih =>
    have hmore : rest ≠ [] ∧ rest <:+ names → rest ≠ [] ∧ rest <:+ name :: names :=
      fun h => ⟨h.1, h.2.trans (List.suffix_cons _ _)⟩
    rw [walkNames] at h
    split at h
    · split at h
      · exact hmore (ih h)
      · cases h
    split at h
    · cases h
    split at h
    · exact hmore (ih h)
    split at h
    · exact hmore (ih h)
    split at h
    · cases h
    dsimp only at h
    split at h
    · split at h <;> cases h
    · split at h
      · rename_i hgo
        cases h
        refine ⟨hgo.resolve_left ?_, List.suffix_cons _ _⟩
        rw [hlast]
        exact Bool.false_ne_true
      · cases h
    · exact hmore (ih h)

/-- A walk that arrives has gone through directories, and only its last name may be missing. -/
theorem isLanding_of_walkNames (tree : disk.IsTree) (hallow : last.Allows names)
    (hbase : names = [] → (disk.entry? base).isSome)
    (h : disk.walkNames last base names = .ok (.arrived place)) : disk.IsLanding place := by
  induction names generalizing base with
  | nil =>
    cases h
    exact .inl (hbase rfl)
  | cons name rest ih =>
    rw [walkNames] at h
    split at h
    · split at h
      · rename_i hdir
        obtain ⟨entry, hentry, -⟩ := isDirAt_iff.1 hdir
        exact ih hallow.tail (fun _ => by rw [hentry]; rfl) h
      · cases h
    rename_i hblank
    split at h
    · cases h
    rename_i hdir
    rw [not_not] at hdir
    split at h
    · exact ih hallow.tail (fun _ => by rw [hdir]; rfl) h
    rename_i hdot
    split at h
    · refine ih hallow.tail (fun _ => ?_) h
      rcases List.eq_nil_or_concat' base with rfl | ⟨up, n, rfl⟩
      · rw [List.dropLast_nil, hdir]
        rfl
      · rw [List.dropLast_concat, IsReachable.entry?_dropLast (tree _ (by rw [hdir]; rfl))]
        rfl
    rename_i habove
    split at h
    · cases h
    rename_i hlong
    dsimp only at h
    -- What stands under the name: nothing, a link, or something that is gone into.
    split at h
    · rename_i hfree
      split at h
      · rename_i hend
        cases h
        obtain ⟨-, hlast⟩ := hallow hend.1
        obtain ⟨hsep, hnul⟩ := hlast name (by rw [hend.2]; rfl)
        exact .inr ⟨base, name, rfl, ⟨hblank, hdot, habove, hsep, hnul, Nat.not_lt.1 hlong⟩, hdir,
          hfree⟩
      · cases h
    · rename_i target htarget
      split at h
      · cases h
      · cases h
        exact .inl (by rw [htarget]; rfl)
    · rename_i entry _ hentry
      exact ih hallow.tail (fun _ => by rw [hentry]; rfl) h

theorem isLanding_of_follow (tree : disk.IsTree) {links : Nat} (hallow : last.Allows names)
    (hne : names ≠ []) (h : disk.follow last links base names = .ok place) :
    disk.IsLanding place := by
  induction links generalizing base names with
  | zero => cases h
  | succ links ih =>
    rw [follow] at h
    split at h
    · cases h
    · rename_i found hwalk
      cases h
      exact isLanding_of_walkNames tree hallow (fun hnil => absurd hnil hne) hwalk
    · rename_i up target rest hwalk
      refine ih (hallow.suffix (fun hlast => suffix_of_walkNames hlast hwalk) _) ?_ h
      exact List.append_ne_nil_of_left_ne_nil (splitNames_ne_nil target) _

theorem separator_notMem_of_mem_splitNames {bytes name : Bytes} (h : name ∈ splitNames bytes) :
    separator ∉ name ∧ ∀ b ∈ name, b ∈ bytes := by
  induction bytes generalizing name with
  | nil =>
    rw [splitNames, List.mem_singleton] at h
    simp [h]
  | cons b bs ih =>
    have hmore : ∀ {n}, n ∈ splitNames bs → separator ∉ n ∧ ∀ c ∈ n, c ∈ b :: bs :=
      fun hn => ⟨(ih hn).1, fun c hc => List.mem_cons_of_mem _ ((ih hn).2 c hc)⟩
    rw [splitNames] at h
    split at h
    · rcases List.mem_cons.1 h with rfl | h
      · simp
      · exact hmore h
    · rename_i hb
      obtain ⟨first, rest, hsplit⟩ := List.exists_cons_of_ne_nil (splitNames_ne_nil bs)
      rw [hsplit] at h hmore
      rcases List.mem_cons.1 h with rfl | h
      · obtain ⟨hsep, hmem⟩ := hmore (List.mem_cons_self (a := first))
        refine ⟨?_, List.forall_mem_cons.2 ⟨List.mem_cons_self, hmem⟩⟩
        rw [List.mem_cons, not_or]
        exact ⟨Ne.symm hb, hsep⟩
      · exact hmore (List.mem_cons_of_mem _ h)

/-- **Where a path leads**, links and dots or not. -/
theorem isLanding_of_search (tree : disk.IsTree) {p : Path}
    (hlast : last.optional → last.followed = false) (h : disk.search last p = .ok place) :
    disk.IsLanding place := by
  rw [search] at h
  split at h
  · cases h
  rename_i hnul
  split at h
  · cases h
  refine isLanding_of_follow tree (fun hoptional => ⟨hlast hoptional, fun n hn => ?_⟩)
    (splitNames_ne_nil _) h
  obtain ⟨hsep, hmem⟩ := separator_notMem_of_mem_splitNames (List.mem_of_getLast? hn)
  exact ⟨hsep, fun hzero => hnul (hmem 0 hzero)⟩

/-- **An absolute path that the system gives** is written in proper names. -/
theorem exists_of_canonical (tree : disk.IsFileTree) {p q : Path} (h : disk.canonical p = .ok q) :
    ∃ place, q = pathOf place ∧ ∀ n ∈ place, IsName n := by
  rw [canonical, bind_eq_ok] at h
  obtain ⟨place, hsearch, h⟩ := h
  dsimp only at h
  split at h
  · cases h
  · cases h
    have hlanding := isLanding_of_search tree.isTree Bool.false_ne_true.elim hsearch
    exact ⟨place, rfl, hlanding.isName tree⟩

/-- Written locations that are the same path are one location. -/
theorem same_pathOf {q : Location} (hn : ∀ n ∈ place, IsName n) (hq : ∀ n ∈ q, IsName n) :
    (pathOf place).same (pathOf q) ↔ place = q := by
  rw [Path.same_iff, components_pathOf hn, components_pathOf hq, List.cons_inj_right]
  exact (List.map_injective_iff.2 fun _ _ h => Component.name.inj h).eq_iff

/-! ## Making a directory -/

/-- **A new directory** stands under a free name in a directory. -/
theorem exists_of_makeDir (tree : disk.IsTree) {disk' : Disk} {p : Path}
    (hlocate : disk.locate ⟨false, true⟩ (trimSeparators p) = .ok place)
    (h : disk.makeDir p = .ok disk') :
    ∃ up name, place = up ++ [name] ∧ disk.IsFree up name ∧ disk' = disk.put place .dir := by
  rw [makeDir, hlocate] at h
  simp only [bind, Except.bind] at h
  have hland : disk.IsLanding place := by
    rw [locate] at hlocate
    split at hlocate
    · cases hlocate
    split at hlocate
    · cases hlocate
    exact isLanding_of_search tree (fun _ => rfl) hlocate
  split at h
  · cases h
  rename_i hnone
  cases h
  rcases hland with hsome | ⟨up, name, rfl, hfree⟩
  · rw [hnone] at hsome
    cases hsome
  · exact ⟨up, name, rfl, hfree, rfl⟩

/-- What stands in a disk with something new under a free name. -/
theorem IsFree.entry?_put {up : Location} {name : Bytes} (hfree : disk.IsFree up name)
    {entry other : Entry} (h : disk.entry? place = some other) :
    Disk.entry? (disk.put (up ++ [name]) entry) place = some other := by
  rw [Disk.entry?_put (by simp), if_neg, h]
  rintro rfl
  rw [hfree.free] at h
  cases h

/-- **A file tree with something new** under a free name is a file tree. -/
theorem IsFileTree.put (tree : disk.IsFileTree) {up : Location} {name : Bytes}
    (hfree : disk.IsFree up name) (entry : Entry) :
    (disk.put (up ++ [name]) entry).IsFileTree := by
  have hentries : (disk.put (up ++ [name]) entry).entries =
      disk.entries ++ [(up ++ [name], entry)] := by
    rw [Disk.put, if_neg]
    intro hany
    obtain ⟨e, he, hplace⟩ := List.any_eq_true.1 hany
    have hsome : (disk.entry? (up ++ [name])).isSome :=
      (entry?_isSome_iff (by simp)).2 ⟨e.2, of_decide_eq_true hplace ▸ he⟩
    rw [hfree.free] at hsome
    cases hsome
  refine ⟨⟨fun e he => ?_, ?_⟩, fun q hq => ?_⟩
  · rw [hentries] at he
    rcases List.mem_append.1 he with he | he
    · exact tree.isName e he
    · rw [List.mem_singleton.1 he]
      exact hfree.isName_concat tree
  · rw [hentries, List.map_append, List.nodup_append]
    refine ⟨tree.nodup, by simp, fun q hq r hr => ?_⟩
    rw [List.map_singleton, List.mem_singleton] at hr
    obtain ⟨e, he, rfl⟩ := List.mem_map.1 hq
    rintro rfl
    have hsome : (disk.entry? e.1).isSome := (entry?_isSome_iff (by simp [hr])).2 ⟨e.2, he⟩
    rw [hr, hfree.free] at hsome
    cases hsome
  · have hup : disk.IsReachable q ∨ q = up ++ [name] := by
      rw [Disk.entry?_put (by simp)] at hq
      split at hq
      · exact .inr ‹_›
      · exact .inl (tree.isTree q hq)
    rcases hup with hup | rfl
    · exact fun base hbase hne => hfree.entry?_put (hup base hbase hne)
    · refine isReachable_concat.2 ⟨fun base hbase hne => hfree.entry?_put ?_,
        hfree.entry?_put hfree.isDir⟩
      exact tree.isTree up (by rw [hfree.isDir]; rfl) base hbase hne

/-! ## Listing directories -/

/-- **The directories at and below a place**, open or closed, are those whose parent has a path that
the system takes. -/
theorem mem_directories (tree : disk.IsFileTree) (hdir : disk.entry? place = some .dir)
    (hle : (pathOf place).bytes.length ≤ maxPath) {top : Bool} {p : Path} :
    p ∈ disk.directories (pathOf place) top ↔ ∃ names, (top = false → names ≠ []) ∧
      disk.isDirAt (place ++ names) = true ∧
      (pathOf (place ++ names.dropLast)).bytes.length ≤ maxPath ∧
      p = pathOf (place ++ names) := by
  have hn := tree.isName_of_dir hdir
  have hwalk := walk_pathOf hn (tree.isTree.linkFree hdir) hle
    (tree.isTree place (by rw [hdir]; rfl)) hdir
  have hbelow : ∀ q, (∃ v ∈ disk.visitsBelow (pathOf place) place, v.isDir = true ∧ v.path = q) ↔
      ∃ names, names ≠ [] ∧ disk.isDirAt (place ++ names) = true ∧
        (pathOf (place ++ names.dropLast)).bytes.length ≤ maxPath ∧
        q = pathOf (place ++ names) := by
    intro q
    have hmem := fun v => mem_visitsBelow (v := v) tree.isTree hn fun names entry hmem n hn =>
      tree.isName _ hmem n (List.mem_append_right _ hn)
    constructor
    · rintro ⟨v, hv, hisDir, rfl⟩
      obtain ⟨names, entry, hne, hentry, hshort, rfl⟩ := (hmem v).1 hv
      have hstands := entry?_of_mem tree.nodup (by simp [hne]) hentry
      exact ⟨names, hne, isDirAt_iff.2 ⟨entry, hstands, hisDir⟩, hshort, rfl⟩
    · rintro ⟨names, hne, hstands, hshort, rfl⟩
      obtain ⟨entry, hentry, hisDir⟩ := isDirAt_iff.1 hstands
      exact ⟨_, (hmem _).2 ⟨names, entry, hne, mem_entries (by simp [hne]) hentry, hshort, rfl⟩,
        hisDir, rfl⟩
  rw [directories, hwalk]
  simp only [List.mem_map, List.mem_filter, and_assoc]
  cases top with
  | false =>
    simp only [Bool.false_eq_true, if_false, List.drop_one, List.tail_cons, forall_const]
    exact hbelow p
  | true =>
    simp only [if_true, reduceCtorEq, false_imp_iff, true_and, List.mem_cons, or_and_right,
      exists_or, exists_eq_left]
    rw [hbelow]
    constructor
    · rintro (rfl | ⟨names, -, hnames⟩)
      · exact ⟨[], by simpa using isDirAt_of_dir hdir, by simpa using hle, by simp⟩
      · exact ⟨names, hnames⟩
    · rintro ⟨names, hnames⟩
      rcases eq_or_ne names [] with rfl | hne
      · exact .inl (by simpa using hnames.2.2.symm)
      · exact .inr ⟨names, hne, hnames⟩

end Disk

end CertRotation
