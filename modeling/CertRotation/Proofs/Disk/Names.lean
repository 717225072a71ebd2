import CertRotation.Disk.Walk
import CertRotation.Proofs.Text.Utf8
import Mathlib.Data.List.Basic

/-!
# Names and the paths made of them

A location is a list of names, and `Disk.pathOf` writes it as a path.  Not every byte string can be
a name, and for those that can (`IsName`) writing is faithful:

* `splitNames_joinNames` — the names can be read off the path again;
* `Disk.pathOf_child`, `Disk.descend_pathOf` — going down from a written location by names is
  writing the longer location, which is how the walk of a directory comes by its paths;
* `Disk.text_pathOf_inj` — below one directory, locations with different readable names have
  different texts, whatever the path of the directory itself looks like.
-/

set_option autoImplicit false

namespace CertRotation

/-- The names an entry of a directory can have. -/
structure IsName (name : Bytes) : Prop where
  ne_nil : name ≠ []
  ne_dot : name ≠ dot
  ne_dotDot : name ≠ dotDot
  separator_notMem : separator ∉ name
  nul_notMem : 0 ∉ name
  length_le : name.length ≤ Disk.maxName

instance (name : Bytes) : Decidable (IsName name) :=
  decidable_of_iff
    (name ≠ [] ∧ name ≠ dot ∧ name ≠ dotDot ∧ separator ∉ name ∧ 0 ∉ name ∧
      name.length ≤ Disk.maxName)
    ⟨fun h => ⟨h.1, h.2.1, h.2.2.1, h.2.2.2.1, h.2.2.2.2.1, h.2.2.2.2.2⟩,
      fun h => ⟨h.1, h.2, h.3, h.4, h.5, h.6⟩⟩

/-! ## Splitting and joining -/

theorem splitNames_of_notMem {name : Bytes} (h : separator ∉ name) : splitNames name = [name] := by
  induction name with
  | nil => rfl
  | cons b bs ih =>
    rw [List.mem_cons, not_or] at h
    rw [splitNames, if_neg (Ne.symm h.1), ih h.2]

theorem splitNames_ne_nil (bytes : Bytes) : splitNames bytes ≠ [] := by
  cases bytes with
  | nil => simp [splitNames]
  | cons b bs =>
    rw [splitNames]
    split
    · simp
    · split <;> simp

/-- A separator divides the names: those before it and those after it. -/
theorem splitNames_append_separator (bytes rest : Bytes) :
    splitNames (bytes ++ separator :: rest) = splitNames bytes ++ splitNames rest := by
  induction bytes with
  | nil => exact if_pos rfl
  | cons b bs ih =>
    rw [List.cons_append, splitNames, splitNames, ih]
    split
    · rfl
    · obtain ⟨name, names, hnames⟩ := List.exists_cons_of_ne_nil (splitNames_ne_nil bs)
      rw [hnames]
      rfl

theorem joinNames_nil : joinNames [] = [] := rfl

theorem joinNames_singleton (name : Bytes) : joinNames [name] = name := by simp [joinNames]

theorem joinNames_cons {name : Bytes} {names : List Bytes} (h : names ≠ []) :
    joinNames (name :: names) = name ++ separator :: joinNames names := by
  cases names with
  | nil => exact absurd rfl h
  | cons other rest => simp [joinNames, List.intercalate]

theorem joinNames_append {names rest : List Bytes} (hn : names ≠ []) (hr : rest ≠ []) :
    joinNames (names ++ rest) = joinNames names ++ separator :: joinNames rest := by
  induction names with
  | nil => exact absurd rfl hn
  | cons name names ih =>
    rcases eq_or_ne names [] with rfl | hne
    · rw [List.singleton_append, joinNames_cons hr, joinNames_singleton]
    · rw [List.cons_append, joinNames_cons (by simp [hne]), ih hne, joinNames_cons hne]
      simp

/-- Bytes added to the last name are bytes added to the whole. -/
theorem joinNames_append_last (names : List Bytes) (name more : Bytes) :
    joinNames (names ++ [name ++ more]) = joinNames (names ++ [name]) ++ more := by
  rcases eq_or_ne names [] with rfl | hne
  · rw [List.nil_append, List.nil_append, joinNames_singleton, joinNames_singleton]
  · rw [joinNames_append hne (by simp), joinNames_append hne (by simp), joinNames_singleton,
      joinNames_singleton]
    simp

/-- **Joined names can be told apart again.** -/
theorem splitNames_joinNames {names : List Bytes} (hne : names ≠ [])
    (h : ∀ name ∈ names, separator ∉ name) : splitNames (joinNames names) = names := by
  induction names with
  | nil => exact absurd rfl hne
  | cons name names ih =>
    have hname := h name (by simp)
    rcases eq_or_ne names [] with rfl | hne'
    · rw [joinNames_singleton, splitNames_of_notMem hname]
    · rw [joinNames_cons hne', splitNames_append_separator, splitNames_of_notMem hname,
        ih hne' fun n hn => h n (List.mem_cons_of_mem _ hn), List.singleton_append]

theorem joinNames_inj {names rest : List Bytes} (hn : ∀ name ∈ names, IsName name)
    (hr : ∀ name ∈ rest, IsName name) (h : joinNames names = joinNames rest) : names = rest := by
  have ne_nil : ∀ l : List Bytes, l ≠ [] → (∀ name ∈ l, IsName name) → joinNames l ≠ [] := by
    intro l hl hnames e
    have hs := splitNames_joinNames hl fun n h => (hnames n h).separator_notMem
    rw [e, splitNames] at hs
    exact (hnames [] (by rw [← hs]; simp)).ne_nil rfl
  rcases eq_or_ne names [] with rfl | hne
  · by_contra hne
    exact ne_nil rest (Ne.symm hne) hr h.symm
  · rcases eq_or_ne rest [] with rfl | hne'
    · exact absurd h (ne_nil names hne hn)
    · rw [← splitNames_joinNames hne fun n h => (hn n h).separator_notMem, h,
        splitNames_joinNames hne' fun n h => (hr n h).separator_notMem]

/-! ## Written locations -/

namespace Disk

/-- What the path of a location below `base` begins with. -/
def stem (base : Location) : Bytes := if base = [] then [] else (pathOf base).bytes

theorem pathOf_append (base : Location) {names : List Bytes} (h : names ≠ []) :
    pathOf (base ++ names) = ⟨stem base ++ separator :: joinNames names⟩ := by
  rcases eq_or_ne base [] with rfl | hbase
  · rfl
  · simp [pathOf, stem, hbase, joinNames_append hbase h]

/-- What a written location is made of. -/
theorem components_pathOf {place : Location} (h : ∀ n ∈ place, IsName n) :
    (pathOf place).components = .top :: place.map .name := by
  have hname : ∀ names : List Bytes, (∀ n ∈ names, IsName n) →
      names.filterMap Component.ofName? = names.map .name := by
    intro names hnames
    induction names with
    | nil => rfl
    | cons n names ih =>
      have hn := hnames n (by simp)
      have hof : Component.ofName? n = some (.name n) := by
        rw [Component.ofName?, if_neg (by simp [hn.ne_nil, hn.ne_dot]), if_neg hn.ne_dotDot]
      rw [List.filterMap_cons, hof, List.map_cons, ih fun m hm => hnames m (by simp [hm])]
  have hlead : (pathOf place).lead = (some .top, [separator], joinNames place) := by
    rw [Path.lead]
    exact if_pos rfl
  rw [Path.components, hlead]
  rcases eq_or_ne place [] with rfl | hne
  · rfl
  · dsimp only
    rw [splitNames_joinNames hne fun n hn => (h n hn).separator_notMem, hname place h]
    rfl

theorem fileName?_pathOf {base : Location} {name : Bytes} (h : ∀ n ∈ base ++ [name], IsName n) :
    (pathOf (base ++ [name])).fileName? = some name := by
  rw [Path.fileName?, components_pathOf h, List.map_append, List.map_singleton, ← List.cons_append,
    List.getLast?_concat]
  rfl

theorem length_pathOf_le (base names : Location) :
    (pathOf base).bytes.length ≤ (pathOf (base ++ names)).bytes.length := by
  rcases eq_or_ne names [] with rfl | hne
  · simp
  rw [pathOf_append base hne, stem]
  split
  · rename_i hbase
    simp [hbase, pathOf, joinNames_nil]
  · simp

/-- Bytes added to the last name are bytes added to the path. -/
theorem bytes_pathOf_append_last (base : Location) (name more : Bytes) :
    (pathOf (base ++ [name ++ more])).bytes = (pathOf (base ++ [name])).bytes ++ more := by
  simp [pathOf, joinNames_append_last]

theorem splitNames_pathOf {place : Location} (h : ∀ name ∈ place, IsName name) :
    splitNames (pathOf place).bytes = [] :: if place = [] then [[]] else place := by
  have hs : splitNames (pathOf place).bytes = [] :: splitNames (joinNames place) := if_pos rfl
  rw [hs]
  split
  · rename_i hnil
    rw [hnil]
    rfl
  · rename_i hne
    rw [splitNames_joinNames hne fun n hn => (h n hn).separator_notMem]

theorem nul_notMem_pathOf {place : Location} (h : ∀ name ∈ place, IsName name) :
    0 ∉ (pathOf place).bytes := by
  have hjoin : ∀ names : List Bytes, (∀ name ∈ names, IsName name) → 0 ∉ joinNames names := by
    intro names hnames
    induction names with
    | nil => simp [joinNames_nil]
    | cons name names ih =>
      have hname := (hnames name (by simp)).nul_notMem
      rcases eq_or_ne names [] with rfl | hne
      · rwa [joinNames_singleton]
      · have hrest := ih fun n hn => hnames n (List.mem_cons_of_mem _ hn)
        simp [joinNames_cons hne, hname, hrest, separator]
  have hplace := hjoin place h
  simp [pathOf, separator, hplace]

theorem getLast?_pathOf_ne {place : Location} (hne : place ≠ []) (h : ∀ name ∈ place, IsName name) :
    (pathOf place).bytes.getLast? ≠ some separator := by
  obtain ⟨base, name, rfl⟩ := (List.eq_nil_or_concat' place).resolve_left hne
  have hname := h name (by simp)
  obtain ⟨front, b, rfl⟩ := (List.eq_nil_or_concat' name).resolve_left hname.ne_nil
  rw [bytes_pathOf_append_last, List.getLast?_concat]
  intro e
  exact hname.separator_notMem (by simp [← Option.some_inj.1 e])

/-- **Going down by a name is writing the longer location.** -/
theorem pathOf_child {base : Location} (h : ∀ n ∈ base, IsName n) (name : Bytes) :
    (pathOf base).child name = pathOf (base ++ [name]) := by
  rcases eq_or_ne base [] with rfl | hbase
  · simp [Path.child, pathOf, joinNames_nil, joinNames_singleton]
  · rw [Path.child, if_neg]
    · rw [pathOf_append base (by simp), stem, if_neg hbase, joinNames_singleton]
    · rintro (e | e)
      · simp [pathOf] at e
      · exact getLast?_pathOf_ne hbase h e

theorem descend_pathOf {base names : Location} (h : ∀ n ∈ base, IsName n)
    (hn : ∀ n ∈ names, IsName n) : descend (pathOf base) names = pathOf (base ++ names) := by
  induction names generalizing base with
  | nil => simp [descend]
  | cons name names ih =>
    have hbase : ∀ n ∈ base ++ [name], IsName n := by
      intro n hmem
      rcases List.mem_append.1 hmem with hmem | hmem
      · exact h n hmem
      · exact hn n (by simp_all)
    have hrest := ih hbase fun n hmem => hn n (List.mem_cons_of_mem _ hmem)
    rw [descend, List.foldl_cons, pathOf_child h]
    simpa [descend] using hrest

end Disk

/-- The path of a file below the directory at `root`. -/
def filePath (root names : Location) : Path := Disk.pathOf (root ++ names)

theorem filePath_concat (root up : Location) (name : Bytes) :
    filePath root (up ++ [name]) = ⟨Disk.stem (root ++ up) ++ separator :: name⟩ := by
  rw [filePath, ← List.append_assoc, Disk.pathOf_append _ (by simp), joinNames_singleton]

theorem filePath_concat_append (root up : Location) (name more : Bytes) :
    filePath root (up ++ [name ++ more]) = ⟨(filePath root (up ++ [name])).bytes ++ more⟩ := by
  rw [filePath_concat, filePath_concat, List.append_assoc, List.cons_append]

namespace Disk

/-! ## The text of a written location -/

theorem isPlain_separator : Utf8.IsPlain separator := show separator < 0x80 by decide

theorem decode?_joinNames {names : List Bytes} (hne : names ≠ [])
    (h : ∀ name ∈ names, (Utf8.decode? name).isSome) : (Utf8.decode? (joinNames names)).isSome := by
  induction names with
  | nil => exact absurd rfl hne
  | cons name names ih =>
    obtain ⟨text, htext⟩ := Option.isSome_iff_exists.1 (h name (by simp))
    rcases eq_or_ne names [] with rfl | hne'
    · rw [joinNames_singleton, htext]
      rfl
    · have hrest := ih hne' fun n hn => h n (List.mem_cons_of_mem _ hn)
      obtain ⟨rest, hrest⟩ := Option.isSome_iff_exists.1 hrest
      rw [joinNames_cons hne', Utf8.decode?_append_plain isPlain_separator, htext, hrest]
      rfl

/-- **Below one directory, readable names are told apart by the text of their path.** -/
theorem text_pathOf_inj {base names rest : Location} (hn : ∀ n ∈ names, IsName n)
    (hr : ∀ n ∈ rest, IsName n) (hn' : ∀ n ∈ names, (Utf8.decode? n).isSome)
    (hr' : ∀ n ∈ rest, (Utf8.decode? n).isSome) (hne : names ≠ []) (hne' : rest ≠ [])
    (h : (pathOf (base ++ names)).text = (pathOf (base ++ rest)).text) : names = rest := by
  obtain ⟨s, hs⟩ := Option.isSome_iff_exists.1 (decode?_joinNames hne hn')
  obtain ⟨t, ht⟩ := Option.isSome_iff_exists.1 (decode?_joinNames hne' hr')
  rw [pathOf_append base hne, pathOf_append base hne', Path.text, Path.text,
    Utf8.lossy_append_plain isPlain_separator, Utf8.lossy_append_plain isPlain_separator,
    Utf8.lossy_of_decode? hs, Utf8.lossy_of_decode? ht, List.append_cancel_left_eq,
    List.cons_inj_right] at h
  refine joinNames_inj hn hr ?_
  rw [← Utf8.encode_of_decode? hs, h, Utf8.encode_of_decode? ht]

end Disk

end CertRotation
