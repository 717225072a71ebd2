import CertRotation.Proofs.Disk.Names

/-!
# Finding a place by its path

The system finds a place by walking names and following links.  Where no link stands in the way, a
walk along a written location ends at that location or not at all, and everything that is asked of
a path is a question about the entries (`Disk.entry?`) on the way:

* `Disk.IsReachable` — everything above a place is an open directory, and `Disk.IsTree` — that is so
  for every place where something stands, so a closed directory holds nothing that is known;
* `Disk.LinkFree` — no link stands at a place or above it;
* `Disk.locate_pathOf` — where the path of a link-free place leads, and whether it leads anywhere;
* `Disk.read_pathOf`, `Disk.isDir_pathOf`, `Disk.occupied_pathOf`, `Disk.walk_pathOf` — what the
  questions of this library come to on such paths;
* `Disk.read_leadsToDir` — nothing can be read at a path that ends in a separator or in dots.
-/

set_option autoImplicit false

namespace CertRotation

theorem bind_eq_ok {ε α β : Type} {x : Except ε α} {f : α → Except ε β} {b : β} :
    (x >>= f) = .ok b ↔ ∃ a, x = .ok a ∧ f a = .ok b := by
  cases x with
  | error e => simp [bind, Except.bind]
  | ok a => simp [bind, Except.bind]

/-- A directory is open or closed. -/
theorem Entry.eq_of_isDir {entry : Entry} (h : entry.isDir = true) :
    entry = dir ∨ ∃ fault, entry = closed fault := by
  cases entry with
  | dir => exact .inl rfl
  | closed fault => exact .inr ⟨fault, rfl⟩
  | file content => cases h
  | sealed fault => cases h
  | link target => cases h

namespace Disk

/-- Everything above `place` is an open directory. -/
def IsReachable (disk : Disk) (place : Location) : Prop :=
  ∀ base, base <+: place → base ≠ place → disk.entry? base = some .dir

/-- No link stands at `place` or above it. -/
def LinkFree (disk : Disk) (place : Location) : Prop :=
  ∀ base, base <+: place → ∀ target, disk.entry? base ≠ some (.link target)

theorem entry?_nil (disk : Disk) : disk.entry? [] = some .dir := if_pos rfl

/-- Whatever stands somewhere stands in an open directory.  What a closed one holds cannot be known
and has no place in the tree. -/
def IsTree (disk : Disk) : Prop := ∀ place, (disk.entry? place).isSome → disk.IsReachable place

theorem IsReachable.entry?_dropLast {disk : Disk} {base : Location} {name : Bytes}
    (h : disk.IsReachable (base ++ [name])) : disk.entry? base = some .dir :=
  h base (List.prefix_append _ _) (by simp)

theorem isReachable_concat {disk : Disk} {base : Location} {name : Bytes} :
    disk.IsReachable (base ++ [name]) ↔ disk.IsReachable base ∧ disk.entry? base = some .dir := by
  constructor
  · intro h
    refine ⟨fun up hup _ => h up (hup.trans (List.prefix_append _ _)) ?_, h.entry?_dropLast⟩
    rintro rfl
    have hlen := hup.length_le
    rw [List.length_append, List.length_singleton] at hlen
    omega
  · rintro ⟨hup, hbase⟩ up hle hne
    rcases eq_or_ne up base with rfl | hne'
    · exact hbase
    · exact hup up ((List.prefix_concat_iff.1 hle).resolve_left hne) hne'

/-! ## Walking names -/

/-- The first step of a walk, where the name is proper and leads to no link. -/
theorem walkNames_cons {disk : Disk} {last : LastName} {base : Location} {name : Bytes}
    {rest : List Bytes} (hname : IsName name)
    (hl : ∀ target, disk.entry? (base ++ [name]) ≠ some (.link target)) :
    disk.walkNames last base (name :: rest) =
      if disk.entry? base ≠ some .dir then .error (disk.lookupFault base)
      else if (disk.entry? (base ++ [name])).isSome then disk.walkNames last (base ++ [name]) rest
      else if last.optional ∧ rest = [] then .ok (.arrived (base ++ [name]))
      else .error .noEntry := by
  rw [walkNames, if_neg hname.ne_nil, if_neg hname.ne_dot, if_neg hname.ne_dotDot,
    if_neg (Nat.not_lt.2 hname.length_le)]
  split
  · rfl
  · simp only
    cases hnext : disk.entry? (base ++ [name]) with
    | none => simp only [Option.isSome_none, Bool.false_eq_true, if_false]
    | some entry =>
      cases entry with
      | link target => exact absurd hnext (hl target)
      | dir => simp only [Option.isSome_some, if_true]
      | closed fault => simp only [Option.isSome_some, if_true]
      | file content => simp only [Option.isSome_some, if_true]
      | sealed fault => simp only [Option.isSome_some, if_true]

/-- **Where a walk along proper names ends.**  Without links on the way there is one place where it
can end, and it ends there if it only passes directories. -/
theorem walkNames_eq_ok_iff {disk : Disk} {last : LastName} {base : Location} {names : List Bytes}
    {stop : Stop} (hn : ∀ n ∈ names, IsName n)
    (hl : ∀ up, up <+: names → ∀ target, disk.entry? (base ++ up) ≠ some (.link target)) :
    disk.walkNames last base names = .ok stop ↔
      stop = .arrived (base ++ names) ∧
        (∀ up, up <+: names → up ≠ names → disk.entry? (base ++ up) = some .dir) ∧
        (names ≠ [] → last.optional = true ∨ (disk.entry? (base ++ names)).isSome) := by
  induction names generalizing base with
  | nil =>
    rw [walkNames, List.append_nil, Except.ok.injEq]
    constructor
    · rintro rfl
      exact ⟨rfl, fun up hup hne => absurd (List.prefix_nil.1 hup) hne, fun h => absurd rfl h⟩
    · rintro ⟨rfl, -, -⟩
      rfl
  | cons name rest ih =>
    have hgo : ∀ up, base ++ name :: up = base ++ [name] ++ up := fun up => by simp
    have hfirst : ∀ target, disk.entry? (base ++ [name]) ≠ some (.link target) :=
      hl [name] (by simp)
    rw [walkNames_cons (hn name (by simp)) hfirst]
    split
    · rename_i hbase
      simp only [reduceCtorEq, false_iff]
      rintro ⟨-, hdir, -⟩
      exact hbase (by simpa using hdir [] List.nil_prefix (by simp))
    rename_i hbase
    rw [not_not] at hbase
    split
    · rename_i hnext
      rw [ih (fun n h => hn n (List.mem_cons_of_mem _ h)) fun up hup target => by
        rw [← hgo]
        exact hl _ (List.cons_prefix_cons.2 ⟨rfl, hup⟩) target]
      rw [hgo rest]
      refine and_congr_right fun _ => ⟨fun ⟨hdir, hend⟩ => ⟨fun up hup hne => ?_, fun _ => ?_⟩,
        fun ⟨hdir, hend⟩ => ⟨fun up hup hne => ?_, fun _ => hend (by simp)⟩⟩
      · cases up with
        | nil => simpa using hbase
        | cons n up =>
          obtain ⟨hn, hup'⟩ := List.cons_prefix_cons.1 hup
          rw [hn, hgo]
          exact hdir up hup' fun e => hne (by rw [hn, e])
      · by_cases hnil : rest = []
        · exact .inr (by simpa [hnil] using hnext)
        · exact hend hnil
      · rw [← hgo]
        exact hdir _ (List.cons_prefix_cons.2 ⟨rfl, hup⟩) (by simpa using hne)
    rename_i hnext
    split
    · rename_i hlast
      rw [hlast.2, Except.ok.injEq]
      constructor
      · rintro rfl
        refine ⟨rfl, fun up hup hne => ?_, fun _ => .inl hlast.1⟩
        cases up with
        | nil => simpa using hbase
        | cons n up => simp_all
      · rintro ⟨rfl, -, -⟩
        rfl
    · rename_i hlast
      simp only [reduceCtorEq, false_iff]
      rintro ⟨-, hdir, hend⟩
      by_cases hnil : rest = []
      · subst hnil
        exact (hend (by simp)).elim (fun h => hlast ⟨h, rfl⟩) hnext
      · have h := hdir [name] (by simp) (by simpa using Ne.symm hnil)
        rw [h] at hnext
        exact hnext rfl

/-! ## Paths of link-free places -/

variable {disk : Disk} {place : Location}

theorem isDirAt_iff :
    disk.isDirAt place = true ↔ ∃ entry, disk.entry? place = some entry ∧ entry.isDir = true := by
  rw [isDirAt, Option.any_eq_true]

theorem isDirAt_of_dir (h : disk.entry? place = some .dir) : disk.isDirAt place = true :=
  isDirAt_iff.2 ⟨_, h, rfl⟩

theorem ne_of_isDirAt {entry : Entry} (h : disk.isDirAt place = false) (hdir : entry.isDir = true) :
    disk.entry? place ≠ some entry := by
  intro hentry
  rw [isDirAt_iff.2 ⟨_, hentry, hdir⟩] at h
  cases h

theorem walkNames_pathOf (last : LastName) (hn : ∀ n ∈ place, IsName n) :
    disk.walkNames last [] (splitNames (pathOf place).bytes) = disk.walkNames last [] place := by
  have hstay : ∀ rest, disk.walkNames last [] ([] :: rest) = disk.walkNames last [] rest := by
    intro rest
    rw [walkNames, if_pos rfl, if_pos (isDirAt_of_dir disk.entry?_nil)]
  rw [splitNames_pathOf hn, hstay]
  split
  · rename_i hnil
    rw [hstay, hnil]
  · rfl

/-- **Where the path of a link-free place leads.** -/
theorem locate_pathOf {last : LastName} {found : Location} (hn : ∀ n ∈ place, IsName n)
    (hl : disk.LinkFree place) :
    disk.locate last (pathOf place) = .ok found ↔
      found = place ∧ (pathOf place).bytes.length ≤ maxPath ∧ disk.IsReachable place ∧
        (place ≠ [] → last.optional = true ∨ (disk.entry? place).isSome) := by
  rw [locate, if_neg (nul_notMem_pathOf hn)]
  split
  · rename_i hlong
    simp only [reduceCtorEq, false_iff]
    rintro ⟨-, hle, -⟩
    omega
  rename_i hle
  have hwalk : ∀ stop, disk.walkNames last [] place = .ok stop ↔ stop = .arrived ([] ++ place) ∧
      (∀ up, up <+: place → up ≠ place → disk.entry? ([] ++ up) = some .dir) ∧
      (place ≠ [] → last.optional = true ∨ (disk.entry? ([] ++ place)).isSome) :=
    fun stop => walkNames_eq_ok_iff hn fun up hup => hl up hup
  simp only [List.nil_append] at hwalk
  rw [search, if_neg (nul_notMem_pathOf hn), if_neg (by simp [pathOf]),
    if_pos (by simp [Path.isAbsolute, pathOf]), follow, walkNames_pathOf last hn]
  cases hw : disk.walkNames last [] place with
  | error fault =>
    simp only [reduceCtorEq, false_iff]
    rintro ⟨rfl, -, hup, hend⟩
    have h := (hwalk (.arrived found)).2 ⟨rfl, hup, hend⟩
    rw [hw] at h
    cases h
  | ok stop =>
    obtain ⟨rfl, hup, hend⟩ := (hwalk stop).1 hw
    rw [Except.ok.injEq]
    exact ⟨fun h => ⟨h.symm, Nat.le_of_not_lt hle, hup, hend⟩, fun h => h.1.symm⟩

theorem entryAt_eq_ok {entry : Entry} :
    disk.entryAt place = .ok entry ↔ disk.entry? place = some entry := by
  rw [entryAt]
  cases disk.entry? place <;> simp

theorem locate_bind_entryAt {last : LastName} {entry : Entry} (hn : ∀ n ∈ place, IsName n)
    (hl : disk.LinkFree place) :
    (disk.locate last (pathOf place) >>= disk.entryAt) = .ok entry ↔
      (pathOf place).bytes.length ≤ maxPath ∧ disk.IsReachable place ∧
        disk.entry? place = some entry := by
  rw [bind_eq_ok]
  constructor
  · rintro ⟨found, hloc, hentry⟩
    obtain ⟨rfl, hle, hup, -⟩ := (locate_pathOf hn hl).1 hloc
    exact ⟨hle, hup, entryAt_eq_ok.1 hentry⟩
  · rintro ⟨hle, hup, hentry⟩
    refine ⟨place, (locate_pathOf hn hl).2 ⟨rfl, hle, hup, fun _ => .inr ?_⟩,
      entryAt_eq_ok.2 hentry⟩
    rw [hentry]
    rfl

theorem stat_pathOf {entry : Entry} (hn : ∀ n ∈ place, IsName n) (hl : disk.LinkFree place) :
    disk.stat (pathOf place) = .ok entry ↔
      (pathOf place).bytes.length ≤ maxPath ∧ disk.IsReachable place ∧
        disk.entry? place = some entry :=
  locate_bind_entryAt hn hl

/-- **Reading a link-free place gives the file that stands there.** -/
theorem read_pathOf {content : Bytes} (hn : ∀ n ∈ place, IsName n) (hl : disk.LinkFree place) :
    disk.read (pathOf place) = .ok content ↔
      (pathOf place).bytes.length ≤ maxPath ∧ disk.IsReachable place ∧
        disk.entry? place = some (.file content) := by
  rw [← stat_pathOf hn hl, read]
  cases hs : disk.stat (pathOf place) with
  | error fault => simp
  | ok entry => cases entry <;> simp

theorem isDir_iff_stat {p : Path} :
    disk.isDir p = true ↔ ∃ entry, disk.stat p = .ok entry ∧ entry.isDir = true := by
  rw [isDir]
  cases disk.stat p <;> simp

theorem isDir_pathOf (hn : ∀ n ∈ place, IsName n) (hl : disk.LinkFree place) :
    disk.isDir (pathOf place) = true ↔
      (pathOf place).bytes.length ≤ maxPath ∧ disk.IsReachable place ∧
        disk.isDirAt place = true := by
  rw [isDir_iff_stat, isDirAt_iff]
  simp only [stat_pathOf hn hl, and_assoc, exists_and_left]

theorem occupied_pathOf (hn : ∀ n ∈ place, IsName n) (hl : disk.LinkFree place) :
    disk.occupied (pathOf place) = true ↔
      (pathOf place).bytes.length ≤ maxPath ∧ disk.IsReachable place ∧
        (disk.entry? place).isSome := by
  have hs : ∀ entry, disk.linkStat (pathOf place) = .ok entry ↔
      (pathOf place).bytes.length ≤ maxPath ∧ disk.IsReachable place ∧
        disk.entry? place = some entry := fun entry => locate_bind_entryAt hn hl
  rw [occupied]
  cases hlink : disk.linkStat (pathOf place) with
  | error fault =>
    simp only [Bool.false_eq_true, false_iff]
    rintro ⟨hle, hup, hsome⟩
    obtain ⟨entry, hentry⟩ := Option.isSome_iff_exists.1 hsome
    rw [(hs entry).2 ⟨hle, hup, hentry⟩] at hlink
    cases hlink
  | ok entry =>
    obtain ⟨hle, hup, hentry⟩ := (hs entry).1 hlink
    simp [hle, hup, hentry]

/-! ## Paths that can only lead to directories -/

/-- A name that leads to a directory wherever it leads. -/
def LeadsToDir (name : Bytes) : Prop := name = [] ∨ name = dot ∨ name = dotDot

theorem walkNames_leadsToDir {last : LastName} {base : Location} {names : List Bytes} {name : Bytes}
    {stop : Stop} (tree : disk.IsTree) (hname : LeadsToDir name)
    (h : disk.walkNames last base (names ++ [name]) = .ok stop) :
    (∃ found, stop = .arrived found ∧ disk.isDirAt found = true) ∨
      ∃ up target rest, stop = .linked up target (rest ++ [name]) := by
  induction names generalizing base with
  | nil =>
    rw [List.nil_append, walkNames] at h
    split at h
    · split at h
      · rename_i hdir
        cases h
        exact .inl ⟨base, rfl, hdir⟩
      · cases h
    rename_i hblank
    split at h
    · cases h
    rename_i hbase
    rw [not_not] at hbase
    split at h
    · cases h
      exact .inl ⟨base, rfl, isDirAt_of_dir hbase⟩
    rename_i hdot
    split at h
    · cases h
      refine .inl ⟨base.dropLast, rfl, isDirAt_of_dir ?_⟩
      rcases List.eq_nil_or_concat' base with rfl | ⟨up, n, rfl⟩
      · exact hbase
      · rw [List.dropLast_concat]
        exact IsReachable.entry?_dropLast (tree _ (by rw [hbase]; rfl))
    rename_i habove
    exact absurd hname (by simp [LeadsToDir, hblank, hdot, habove])
  | cons first names ih =>
    rw [List.cons_append, walkNames] at h
    split at h
    · split at h
      · exact ih h
      · cases h
    split at h
    · cases h
    split at h
    · exact ih h
    split at h
    · exact ih h
    split at h
    · cases h
    dsimp only at h
    split at h
    · rw [if_neg (by simp)] at h
      cases h
    · rename_i target htarget
      rw [if_pos (by simp)] at h
      cases h
      exact .inr ⟨base, target, names, rfl⟩
    · exact ih h

theorem follow_leadsToDir {last : LastName} {links : Nat} {base found : Location}
    {names : List Bytes} {name : Bytes} (tree : disk.IsTree) (hname : LeadsToDir name)
    (h : disk.follow last links base (names ++ [name]) = .ok found) :
    disk.isDirAt found = true := by
  induction links generalizing base names with
  | zero => cases h
  | succ links ih =>
    rw [follow] at h
    split at h
    · cases h
    · rename_i place hwalk
      cases h
      rcases walkNames_leadsToDir tree hname hwalk with ⟨found, hstop, hdir⟩ | ⟨_, _, _, hstop⟩
      · cases hstop
        exact hdir
      · cases hstop
    · rename_i up target rest hwalk
      rcases walkNames_leadsToDir tree hname hwalk with ⟨_, hstop, -⟩ | ⟨_, _, rest, hstop⟩
      · cases hstop
      · cases hstop
        rw [← List.append_assoc] at h
        exact ih h

/-- **Nothing can be read at a path that can only lead to a directory.** -/
theorem read_leadsToDir {bytes name content : Bytes} (tree : disk.IsTree) (hname : LeadsToDir name)
    (hsep : separator ∉ name) : disk.read ⟨bytes ++ separator :: name⟩ ≠ .ok content := by
  have hstat : ∀ entry, disk.stat ⟨bytes ++ separator :: name⟩ = .ok entry →
      entry.isDir = true := by
    intro entry h
    rw [stat, bind_eq_ok] at h
    obtain ⟨found, hloc, hentry⟩ := h
    rw [locate] at hloc
    split at hloc
    · cases hloc
    split at hloc
    · cases hloc
    rw [search] at hloc
    split at hloc
    · cases hloc
    split at hloc
    · cases hloc
    rw [splitNames_append_separator, splitNames_of_notMem hsep] at hloc
    have hdir := follow_leadsToDir tree hname hloc
    rwa [isDirAt, entryAt_eq_ok.1 hentry] at hdir
  rw [read]
  cases hs : disk.stat ⟨bytes ++ separator :: name⟩ with
  | error fault => simp
  | ok entry =>
    rcases Entry.eq_of_isDir (hstat entry hs) with rfl | ⟨fault, rfl⟩
    · simp
    · simp

/-! ## Walking a directory -/

theorem entry?_isSome_iff (hne : place ≠ []) :
    (disk.entry? place).isSome ↔ ∃ entry, (place, entry) ∈ disk.entries := by
  rw [Disk.entry?, if_neg hne, List.lookup_isSome_iff]
  constructor
  · rintro ⟨⟨q, entry⟩, hmem, hq⟩
    rw [beq_iff_eq] at hq
    exact ⟨entry, hq ▸ hmem⟩
  · rintro ⟨entry, hmem⟩
    exact ⟨_, hmem, beq_self_eq_true place⟩

theorem isOpen_iff {names : Location} : disk.isOpen place names = true ↔
    ∀ up, up <+: names → disk.entry? (place ++ up) = some .dir := by
  induction names generalizing place with
  | nil => simp [isOpen]
  | cons name names ih =>
    rw [isOpen, Bool.and_eq_true, decide_eq_true_eq, ih]
    constructor
    · rintro ⟨hdir, hrest⟩ up hup
      cases up with
      | nil => simpa using hdir
      | cons n up =>
        obtain ⟨rfl, hup'⟩ := List.cons_prefix_cons.1 hup
        simpa using hrest up hup'
    · intro h
      refine ⟨by simpa using h [] List.nil_prefix, fun up hup => ?_⟩
      simpa using h (name :: up) (List.cons_prefix_cons.2 ⟨rfl, hup⟩)

/-- A way down is open if its first part is, up to the directory where the rest starts. -/
theorem isOpen_append {names more : Location} (hne : names ≠ [])
    (hnames : disk.isOpen place names.dropLast = true)
    (hmore : disk.isOpen (place ++ names) more = true) :
    disk.isOpen place (names ++ more) = true := by
  obtain ⟨front, name, rfl⟩ := (List.eq_nil_or_concat' names).resolve_left hne
  rw [List.dropLast_concat] at hnames
  rw [isOpen_iff] at hnames hmore ⊢
  intro up hup
  rcases List.prefix_or_prefix_of_prefix hup (List.prefix_append _ _) with hup | ⟨rest, rfl⟩
  · rcases List.prefix_concat_iff.1 hup with rfl | hup
    · simpa using hmore [] List.nil_prefix
    · exact hnames up hup
  · rw [← List.append_assoc]
    exact hmore rest ((List.prefix_append_right_inj _).1 hup)

/-- Whatever stands below a directory of a tree stands in one that a walk enters. -/
theorem IsTree.isOpen_dropLast (tree : disk.IsTree) {names : Location} (hne : names ≠ [])
    (h : (disk.entry? (place ++ names)).isSome) : disk.isOpen place names.dropLast = true := by
  obtain ⟨front, name, rfl⟩ := (List.eq_nil_or_concat' names).resolve_left hne
  rw [List.dropLast_concat, isOpen_iff]
  intro up hup
  refine tree _ h _ ?_ fun heq => ?_
  · exact (List.prefix_append_right_inj place).2 (hup.trans (List.prefix_append _ _))
  · have hlength := hup.length_le
    rw [List.append_cancel_left heq, List.length_append, List.length_singleton] at hlength
    omega

/-- A walk of a directory comes to the directory and then to everything below it. -/
theorem walk_pathOf (hn : ∀ n ∈ place, IsName n) (hl : disk.LinkFree place)
    (hle : (pathOf place).bytes.length ≤ maxPath) (hup : disk.IsReachable place)
    (hdir : disk.entry? place = some .dir) :
    disk.walk (pathOf place) =
      .ok ⟨⟨pathOf place, true⟩ :: disk.visitsBelow (pathOf place) place, none⟩ := by
  have hstands : disk.linkStat (pathOf place) = .ok .dir :=
    (locate_bind_entryAt hn hl).2 ⟨hle, hup, hdir⟩
  have hloc : disk.locate ⟨true, false⟩ (pathOf place) = .ok place :=
    (locate_pathOf hn hl).2 ⟨rfl, hle, hup, fun _ => .inr (by rw [hdir]; rfl)⟩
  rw [walk, hstands, hloc]
  show (disk.entryAt place >>= _) = _
  rw [entryAt_eq_ok.2 hdir]
  rfl

/-- What lies below a directory. -/
theorem mem_below {names : Location} {entry : Entry} :
    (names, entry) ∈ disk.below place ↔ names ≠ [] ∧ (place ++ names, entry) ∈ disk.entries := by
  rw [below, List.mem_filterMap]
  constructor
  · rintro ⟨⟨full, e⟩, hmem, h⟩
    rw [Option.ite_none_right_eq_some] at h
    obtain ⟨⟨⟨names, rfl⟩, hne⟩, h⟩ := h
    rw [List.drop_left] at h
    cases h
    exact ⟨by simpa using hne, hmem⟩
  · rintro ⟨hne, hmem⟩
    refine ⟨_, hmem, ?_⟩
    dsimp only
    rw [if_pos ⟨List.prefix_append _ _, by simpa using hne⟩, List.drop_left]

/-- What a walk comes to below the directory that it goes on in. -/
theorem mem_visitsBelow_iff {p : Path} {v : Visit} :
    v ∈ disk.visitsBelow p place ↔
      ∃ names entry, names ≠ [] ∧ (place ++ names, entry) ∈ disk.entries ∧
        disk.isOpen place names.dropLast = true ∧
        (descend p names.dropLast).bytes.length ≤ maxPath ∧
        v = ⟨descend p names, entry.isDir⟩ := by
  simp only [visitsBelow, List.mem_filterMap, Prod.exists, Option.ite_none_right_eq_some,
    Option.some.injEq, mem_below, and_assoc, @eq_comm _ v]

/-- What a walk of a directory of a tree comes to below it. -/
theorem mem_visitsBelow {v : Visit} (tree : disk.IsTree) (hn : ∀ n ∈ place, IsName n)
    (hb : ∀ names entry, (place ++ names, entry) ∈ disk.entries → ∀ n ∈ names, IsName n) :
    v ∈ disk.visitsBelow (pathOf place) place ↔
      ∃ names entry, names ≠ [] ∧ (place ++ names, entry) ∈ disk.entries ∧
        (pathOf (place ++ names.dropLast)).bytes.length ≤ maxPath ∧
        v = ⟨pathOf (place ++ names), entry.isDir⟩ := by
  rw [mem_visitsBelow_iff]
  refine exists_congr fun names => exists_congr fun entry => and_congr_right fun hne =>
    and_congr_right fun hmem => ?_
  have hnames := hb names entry hmem
  have hsome : (disk.entry? (place ++ names)).isSome :=
    (entry?_isSome_iff (by simp [hne])).2 ⟨entry, hmem⟩
  rw [descend_pathOf hn hnames,
    descend_pathOf hn fun n hn => hnames n (List.dropLast_subset names hn),
    and_iff_right (tree.isOpen_dropLast hne hsome)]

end Disk
end CertRotation
