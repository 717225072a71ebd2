import CertRotation.Disk.Edit
import CertRotation.Proofs.Disk.Lookup
import Mathlib.Data.List.Infix
import Mathlib.Data.List.TakeWhile

/-!
# What an edit changes

The operations that write change the list of entries.  Seen through `Disk.entry?` each of them
changes what stands at one or two places and leaves everything else as it was.

* `Disk.entry?_put`, `Disk.entry?_cut`, `Disk.entry?_relocate` — the three ways to change the list;
* `Disk.SameDirs` — edits after which the same directories stand;
* `Disk.write_pathOf`, `Disk.removeFile_pathOf`, `Disk.rename_pathOf` — what the operations on files
  do to a tree, on the paths of places that are reached without links.
-/

set_option autoImplicit false

namespace CertRotation
namespace Disk

/-! ## Looking up in a changed list -/

section Lookup

variable {α β : Type} [BEq α] [LawfulBEq α]

theorem lookup_map_key {f : α → α} {entries : List (α × β)} {key other : α}
    (h : ∀ e ∈ entries, f e.1 = key ↔ e.1 = other) :
    (entries.map fun e => (f e.1, e.2)).lookup key = entries.lookup other := by
  induction entries with
  | nil => rfl
  | cons e rest ih =>
    have hrest := ih fun e' he' => h e' (List.mem_cons_of_mem _ he')
    have he := h e (by simp)
    rw [List.map_cons, List.lookup_cons, List.lookup_cons, hrest]
    by_cases hk : f e.1 = key
    · rw [beq_iff_eq.2 hk.symm, beq_iff_eq.2 (he.1 hk).symm]
    · rw [beq_eq_false_iff_ne.2 (Ne.symm hk), beq_eq_false_iff_ne.2 fun e' => hk (he.2 e'.symm)]

theorem lookup_filter_key (p : α → Bool) (entries : List (α × β)) (key : α) :
    (entries.filter fun e => p e.1).lookup key = if p key then entries.lookup key else none := by
  induction entries with
  | nil => simp
  | cons e rest ih =>
    obtain ⟨other, value⟩ := e
    rw [List.filter_cons]
    by_cases hk : key = other
    · subst hk
      cases hp : p key with
      | false => simp [ih, hp]
      | true => simp
    · have hne : (key == other) = false := beq_eq_false_iff_ne.2 hk
      cases hp : p other with
      | false => simp [ih, List.lookup_cons, hne]
      | true => simp [ih, List.lookup_cons, hne]

theorem lookup_map_value [DecidableEq α] (entries : List (α × β)) (key other : α) (value : β) :
    (entries.map fun e => if e.1 = key then (key, value) else e).lookup other =
      if other = key then (entries.lookup key).map fun _ => value else entries.lookup other := by
  induction entries with
  | nil => simp
  | cons e rest ih =>
    obtain ⟨first, old⟩ := e
    rw [List.map_cons]
    by_cases hf : first = key
    · subst hf
      by_cases ho : other = first
      · simp [ho]
      · have hne : (other == first) = false := beq_eq_false_iff_ne.2 ho
        simp [List.lookup_cons, hne, ih, ho]
    · have hne : (key == first) = false := beq_eq_false_iff_ne.2 (Ne.symm hf)
      by_cases ho : other = key
      · subst ho
        simp [List.lookup_cons, hne, ih, hf]
      · simp [List.lookup_cons, ih, ho, hf]

end Lookup

variable {disk disk' : Disk} {place : Location}

theorem mem_entries (hne : place ≠ []) {entry : Entry} (h : disk.entry? place = some entry) :
    (place, entry) ∈ disk.entries := by
  rw [Disk.entry?, if_neg hne, List.lookup_eq_some_iff] at h
  obtain ⟨front, rest, hentries, -⟩ := h
  rw [hentries]
  simp

/-- Where no place is listed twice, what is listed is what stands there. -/
theorem entry?_of_mem (hdistinct : (disk.entries.map Prod.fst).Nodup) (hne : place ≠ [])
    {entry : Entry} (h : (place, entry) ∈ disk.entries) : disk.entry? place = some entry := by
  obtain ⟨front, rest, hentries⟩ := List.append_of_mem h
  rw [Disk.entry?, if_neg hne, List.lookup_eq_some_iff]
  refine ⟨front, rest, hentries, fun e he => bne_iff_ne.2 ?_⟩
  rw [hentries, List.map_append, List.nodup_append] at hdistinct
  exact (hdistinct.2.2 e.1 (List.mem_map_of_mem he) place (by simp)).symm

theorem entry?_put (hne : place ≠ []) (entry : Entry) (q : Location) :
    Disk.entry? (disk.put place entry) q = if q = place then some entry else disk.entry? q := by
  rcases eq_or_ne q [] with rfl | hq
  · rw [entry?_nil, entry?_nil, if_neg (Ne.symm hne)]
  rw [put]
  split
  · rename_i hany
    have hsome : (disk.entry? place).isSome := (entry?_isSome_iff hne).2 (by simpa using hany)
    obtain ⟨old, hold⟩ := Option.isSome_iff_exists.1 hsome
    rw [Disk.entry?, if_neg hne] at hold
    rw [Disk.entry?, if_neg hq, Disk.entry?, if_neg hq, lookup_map_value, hold]
    rfl
  · rename_i hany
    have hnone : disk.entry? place = none := by
      rw [← Option.not_isSome_iff_eq_none, entry?_isSome_iff hne]
      simpa using hany
    rw [Disk.entry?, if_neg hne] at hnone
    rw [Disk.entry?, if_neg hq, Disk.entry?, if_neg hq, List.lookup_append]
    split
    · rename_i hplace
      rw [hplace, hnone]
      simp
    · rename_i hplace
      have hother : (q == place) = false := beq_eq_false_iff_ne.2 hplace
      simp [List.lookup_cons, hother]

theorem entry?_cut (hne : place ≠ []) (q : Location) :
    Disk.entry? (disk.cut place) q = if place <+: q then none else disk.entry? q := by
  rcases eq_or_ne q [] with rfl | hq
  · rw [entry?_nil, entry?_nil, if_neg (by simpa using hne)]
  · rw [Disk.entry?, if_neg hq, Disk.entry?, if_neg hq, cut,
      lookup_filter_key fun key => !place.isPrefixOf key]
    by_cases hpre : place <+: q
    · rw [if_pos hpre, List.isPrefixOf_iff_prefix.2 hpre]
      rfl
    · have hkeep := Bool.eq_false_iff.2 (List.isPrefixOf_iff_prefix.not.2 hpre)
      rw [if_neg hpre, hkeep]
      rfl

/-- Where the entry at `key` stands after `source` has been moved to `target`. -/
def moved (source target key : Location) : Location :=
  if source <+: key then target ++ key.drop source.length else key

theorem entries_relocate (source target : Location) :
    (disk.relocate source target).entries =
      disk.entries.map fun e => (moved source target e.1, e.2) := by
  rw [relocate]
  refine List.map_congr_left fun e _ => ?_
  rw [moved]
  by_cases h : source <+: e.1
  · rw [if_pos h, if_pos (List.isPrefixOf_iff_prefix.2 h)]
  · rw [if_neg h, if_neg (List.isPrefixOf_iff_prefix.not.2 h)]

theorem moved_eq_append {source target key rest : Location} (h : ¬ target <+: key) :
    moved source target key = target ++ rest ↔ key = source ++ rest := by
  rw [moved]
  split
  · rename_i hsource
    obtain ⟨more, rfl⟩ := hsource
    rw [List.drop_left, List.append_cancel_left_eq, List.append_cancel_left_eq]
  · rename_i hsource
    constructor
    · intro e
      exact absurd ⟨rest, e.symm⟩ h
    · intro e
      exact absurd ⟨rest, e.symm⟩ hsource

theorem moved_eq_iff {source target key q : Location} (ht : ¬ target <+: q) :
    moved source target key = q ↔ key = q ∧ ¬ source <+: q := by
  rw [moved]
  split
  · rename_i hsource
    constructor
    · intro e
      exact absurd ⟨_, e⟩ ht
    · rintro ⟨rfl, h⟩
      exact absurd hsource h
  · rename_i hsource
    constructor
    · rintro rfl
      exact ⟨rfl, hsource⟩
    · exact And.left

/-- What is moved to a place where nothing stands. -/
theorem entry?_relocate {source target : Location} (hs : source ≠ []) (ht : target ≠ [])
    (hfree : ∀ e ∈ disk.entries, ¬ target <+: e.1) (q : Location) :
    Disk.entry? (disk.relocate source target) q =
      if target <+: q then disk.entry? (source ++ q.drop target.length)
      else if source <+: q then none else disk.entry? q := by
  rcases eq_or_ne q [] with rfl | hq
  · rw [entry?_nil, entry?_nil, if_neg (by simpa using ht), if_neg (by simpa using hs)]
  rw [Disk.entry?, if_neg hq, entries_relocate]
  split
  · rename_i hpre
    obtain ⟨rest, rfl⟩ := hpre
    rw [List.drop_left, Disk.entry?, if_neg (by simp [hs])]
    exact lookup_map_key fun e he => moved_eq_append (hfree e he)
  rename_i hpre
  split
  · rename_i hsource
    rw [List.lookup_eq_none_iff]
    intro e' he'
    obtain ⟨e, he, rfl⟩ := List.mem_map.1 he'
    exact bne_iff_ne.2 fun h => ((moved_eq_iff hpre).1 h.symm).2 hsource
  · rename_i hsource
    rw [Disk.entry?, if_neg hq]
    refine lookup_map_key fun e he => ?_
    rw [moved_eq_iff hpre, and_iff_left hsource]

/-! ## Trees -/

instance (disk : Disk) (place : Location) : Decidable (disk.IsReachable place) :=
  decidable_of_iff (∀ base ∈ place.inits, base ≠ place → disk.entry? base = some .dir)
    (by simp only [List.mem_inits, IsReachable])

/-- Only places that are listed need a directory to stand in. -/
theorem isTree_iff : disk.IsTree ↔ ∀ e ∈ disk.entries, disk.IsReachable e.1 := by
  constructor
  · intro tree e he
    rcases eq_or_ne e.1 [] with hnil | hne
    · rw [hnil]
      exact fun base hbase hne => absurd (List.prefix_nil.1 hbase) hne
    · exact tree e.1 ((entry?_isSome_iff hne).2 ⟨e.2, he⟩)
  · intro h place hplace
    rcases eq_or_ne place [] with rfl | hne
    · exact fun base hbase hne => absurd (List.prefix_nil.1 hbase) hne
    · obtain ⟨entry, hmem⟩ := (entry?_isSome_iff hne).1 hplace
      exact h _ hmem

instance (disk : Disk) : Decidable disk.IsTree := decidable_of_iff _ isTree_iff.symm

/-- The same directories, open and closed, stand on both disks. -/
def SameDirs (disk disk' : Disk) : Prop :=
  ∀ q entry, entry.isDir = true →
    (disk'.entry? q = some entry ↔ disk.entry? q = some entry)

/-- Where only files come and go, the directories stay. -/
theorem sameDirs_of_isDirAt (h : ∀ q, disk'.entry? q = disk.entry? q ∨
    disk.isDirAt q = false ∧ disk'.isDirAt q = false) : SameDirs disk disk' := by
  intro q entry hdir
  rcases h q with hsame | ⟨hold, hnew⟩
  · rw [hsame]
  · exact iff_of_false (ne_of_isDirAt hnew hdir) (ne_of_isDirAt hold hdir)

theorem SameDirs.symm (h : SameDirs disk disk') : SameDirs disk' disk :=
  fun q entry hdir => (h q entry hdir).symm

theorem SameDirs.isDirAt_eq (h : SameDirs disk disk') (q : Location) :
    disk'.isDirAt q = disk.isDirAt q := by
  rw [Bool.eq_iff_iff, isDirAt_iff, isDirAt_iff]
  exact exists_congr fun entry => and_congr_left fun hdir => h q entry hdir

theorem SameDirs.isReachable (h : SameDirs disk disk') (hup : disk.IsReachable place) :
    disk'.IsReachable place :=
  fun base hle hne => (h base .dir rfl).2 (hup base hle hne)

/-- No link leads to a directory of a tree. -/
theorem IsTree.linkFree (tree : disk.IsTree) (hdir : disk.entry? place = some .dir) :
    disk.LinkFree place := by
  intro base hbase target hlink
  rcases eq_or_ne base place with rfl | hne
  · rw [hdir] at hlink
    cases hlink
  · rw [tree place (by rw [hdir]; rfl) base hbase hne] at hlink
    cases hlink

/-- In a tree there is nothing below anything but an open directory. -/
theorem IsTree.eq_of_prefix (tree : disk.IsTree) (hne : disk.entry? place ≠ some .dir)
    {q : Location} (hpre : place <+: q) (hq : (disk.entry? q).isSome) : q = place := by
  by_contra hother
  exact hne (tree q hq place hpre (Ne.symm hother))

theorem IsTree.entry?_below (tree : disk.IsTree) (hne : disk.entry? place ≠ some .dir)
    {q : Location} (hpre : place <+: q) (hq : q ≠ place) : disk.entry? q = none := by
  rw [← Option.not_isSome_iff_eq_none]
  exact fun hsome => hq (tree.eq_of_prefix hne hpre hsome)

theorem IsTree.entry?_cut (tree : disk.IsTree) (hne : place ≠ [])
    (hdir : disk.entry? place ≠ some .dir) (q : Location) :
    Disk.entry? (disk.cut place) q = if q = place then none else disk.entry? q := by
  rw [Disk.entry?_cut hne]
  by_cases hq : q = place
  · rw [if_pos hq, if_pos (hq ▸ List.prefix_refl _)]
  rw [if_neg hq]
  split
  · rename_i hpre
    exact (tree.entry?_below hdir hpre hq).symm
  · rfl

/-! ## The operations on files -/

theorem trimSeparators_pathOf (hne : place ≠ []) (hn : ∀ n ∈ place, IsName n) :
    trimSeparators (pathOf place) = pathOf place := by
  have hlast := getLast?_pathOf_ne hne hn
  have hkeep : (pathOf place).bytes.reverse.dropWhile (· = separator) =
      (pathOf place).bytes.reverse := by
    rw [List.dropWhile_eq_self_iff]
    intro hpos e
    refine hlast ?_
    rw [← List.head?_reverse, List.head?_eq_getElem?, List.getElem?_eq_getElem hpos]
    simpa using e
  rw [trimSeparators, hkeep, List.reverse_reverse]
  exact if_neg (by simp [pathOf])

theorem meansDirectory_pathOf (hne : place ≠ []) (hn : ∀ n ∈ place, IsName n) :
    meansDirectory (pathOf place) = false :=
  decide_eq_false (getLast?_pathOf_ne hne hn)

/-- **Writing** puts a file at the place. -/
theorem write_pathOf {data : Bytes} (hne : place ≠ []) (hn : ∀ n ∈ place, IsName n)
    (hl : disk.LinkFree place) (h : disk.write (pathOf place) data = .ok disk') :
    (pathOf place).bytes.length ≤ maxPath ∧ disk.IsReachable place ∧
      disk.isDirAt place = false ∧
      ∀ q, disk'.entry? q = if q = place then some (.file data) else disk.entry? q := by
  rw [write, trimSeparators_pathOf hne hn, meansDirectory_pathOf hne hn, bind_eq_ok] at h
  obtain ⟨found, hloc, h⟩ := h
  obtain ⟨rfl, hle, hup, -⟩ := (locate_pathOf hn hl).1 hloc
  split at h
  · cases h
  · rename_i hdir
    cases h
    exact ⟨hle, hup, Bool.eq_false_iff.2 fun h => hdir (.inl h), entry?_put hne _⟩

/-- **Removing** leaves nothing at the place. -/
theorem removeFile_pathOf (tree : disk.IsTree) (hne : place ≠ []) (hn : ∀ n ∈ place, IsName n)
    (hl : disk.LinkFree place) (h : disk.removeFile (pathOf place) = .ok disk') :
    (disk.entry? place).isSome ∧ disk.isDirAt place = false ∧
      ∀ q, disk'.entry? q = if q = place then none else disk.entry? q := by
  simp only [removeFile, bind_eq_ok] at h
  obtain ⟨found, hloc, entry, hat, h⟩ := h
  obtain ⟨rfl, -, -, -⟩ := (locate_pathOf hn hl).1 hloc
  have hentry := entryAt_eq_ok.1 hat
  split at h
  · cases h
  rename_i hfile
  cases h
  have hdir : disk.isDirAt found = false := by
    rw [isDirAt, hentry]
    exact Bool.eq_false_iff.2 hfile
  exact ⟨by rw [hentry]; rfl, hdir, tree.entry?_cut hne (ne_of_isDirAt hdir rfl)⟩

/-- **Renaming a file** puts it at the other place, whatever file stood there before. -/
theorem rename_pathOf {source target : Location} (tree : disk.IsTree) (hs : source ≠ [])
    (ht : target ≠ []) (hsn : ∀ n ∈ source, IsName n) (htn : ∀ n ∈ target, IsName n)
    (hsl : disk.LinkFree source) (htl : disk.LinkFree target) (hne : source ≠ target)
    (hfile : disk.isDirAt source = false)
    (h : disk.rename (pathOf source) (pathOf target) = .ok disk') :
    ((pathOf source).bytes.length ≤ maxPath ∧ (disk.entry? source).isSome) ∧
      ((pathOf target).bytes.length ≤ maxPath ∧ disk.IsReachable target) ∧
      disk.isDirAt target = false ∧
      ∀ q, disk'.entry? q =
        if q = target then disk.entry? source else if q = source then none else disk.entry? q := by
  simp only [rename, bind_eq_ok] at h
  obtain ⟨start, hstart, entry, hat, h⟩ := h
  obtain ⟨rfl, hsle, -, -⟩ := (locate_pathOf hsn hsl).1 hstart
  have hentry := entryAt_eq_ok.1 hat
  split at h
  · cases h
  rw [trimSeparators_pathOf ht htn, bind_eq_ok] at h
  obtain ⟨place, hplace, h⟩ := h
  obtain ⟨rfl, htle, hup, -⟩ := (locate_pathOf htn htl).1 hplace
  rw [meansDirectory_pathOf ht htn, if_neg (by simp), if_neg hne] at h
  have hfalse : entry.isDir = false := by
    rw [isDirAt, hentry] at hfile
    exact hfile
  rw [hfalse] at h
  have hsome : (disk.entry? start).isSome := by
    rw [hentry]
    rfl
  have hsource : disk.entry? start ≠ some .dir := ne_of_isDirAt hfile rfl
  have hnot : disk.isDirAt place = false := by
    rw [isDirAt]
    cases hat : disk.entry? place with
    | none => rfl
    | some other =>
      cases hother : other.isDir with
      | false => exact hother
      | true => simp [hat, hother] at h
  have hdir : disk.entry? place ≠ some .dir := ne_of_isDirAt hnot rfl
  have hmove : disk' = (disk.cut place).relocate start place := by
    split at h
    · cases h
    · cases ‹false = true›
    · cases ‹false = true›
    · exact (Except.ok.inj h).symm
  refine ⟨⟨hsle, hsome⟩, ⟨htle, hup⟩, hnot, fun q => ?_⟩
  have hfree : ∀ e ∈ (disk.cut place).entries, ¬ place <+: e.1 := by
    intro e he hpre
    have hkept := (List.mem_filter.1 he).2
    rw [List.isPrefixOf_iff_prefix.2 hpre] at hkept
    cases hkept
  rw [hmove, entry?_relocate hs ht hfree]
  split
  · rename_i hpre
    obtain ⟨rest, rfl⟩ := hpre
    rw [List.drop_left, tree.entry?_cut ht hdir]
    rcases eq_or_ne rest [] with rfl | hrest
    · rw [List.append_nil, List.append_nil, if_neg hne, if_pos rfl]
    have hbelow : disk.entry? (start ++ rest) = none :=
      tree.entry?_below hsource (List.prefix_append _ _) (by simpa using hrest)
    have hother : disk.entry? (place ++ rest) = none :=
      tree.entry?_below hdir (List.prefix_append _ _) (by simpa using hrest)
    rw [hbelow, hother, if_neg (by simpa using hrest : place ++ rest ≠ place)]
    split <;> split <;> rfl
  · rename_i hpre
    have hq : q ≠ place := by
      rintro rfl
      exact hpre (List.prefix_refl _)
    rw [if_neg hq]
    split
    · rename_i hpre'
      rcases eq_or_ne q start with rfl | hq'
      · rw [if_pos rfl]
      · rw [if_neg hq', tree.entry?_below hsource hpre' hq']
    · rename_i hpre'
      have hq' : q ≠ start := by
        rintro rfl
        exact hpre' (List.prefix_refl _)
      rw [if_neg hq', tree.entry?_cut ht hdir, if_neg hq]

end Disk
end CertRotation
