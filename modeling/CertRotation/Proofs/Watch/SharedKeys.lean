import CertRotation.Proofs.Disk.Listing
import CertRotation.Proofs.Watch.Eviction
import CertRotation.Proofs.Watch.NearestRoot

/-!
# Files that share a key

Where the whole path is the key, or the path below the root, one would think that every file has a
key of its own.  A key is a text, though, and a path is bytes: every part of a name that spells
nothing is shown by the same replacement character.  Nothing else is lost, since a separator is
never part of what is replaced and never comes out of it.  So two files share a key if and only if
their names read alike, one by one, and files whose names are text have keys of their own.

The departure of a file then drops what was loaded from another one that shares its key.

* `IsNormalName`, `Disk.components_descend` — the names that lead from a root to a file;
* `Utf8.lossy_joinNames` — joined names read as their texts, joined;
* `KeyResolver.KeysPaths`, `KeyResolver.exists_key?_descend` — the key of a file below a root;
* `Loader.keys_shared_iff` — **which files share a key**, and what that does to their entries;
* `Loader.twin_evicted` — two that do.
-/

set_option autoImplicit false

namespace CertRotation

/-! ## Names -/

/-- What stands between two separators and names something that is not a directory above. -/
structure IsNormalName (name : Bytes) : Prop where
  separator_notMem : separator ∉ name
  not_leadsToDir : ¬ Disk.LeadsToDir name

instance (name : Bytes) : Decidable (IsNormalName name) :=
  decidable_of_iff (separator ∉ name ∧ ¬ (name = [] ∨ name = dot ∨ name = dotDot))
    ⟨fun h => ⟨h.1, h.2⟩, fun h => ⟨h.1, h.2⟩⟩

theorem IsNormalName.ne_nil {name : Bytes} (h : IsNormalName name) : name ≠ [] := fun hnil =>
  h.not_leadsToDir (.inl hnil)

namespace Path

variable {p : Path} {name : Bytes}

/-- A separator at the end of an absolute path adds nothing to it. -/
theorem components_concat_separator {bytes : Bytes} (h : (Path.mk bytes).isAbsolute) :
    (Path.mk (bytes ++ [separator])).components = (Path.mk bytes).components := by
  obtain ⟨b, bs, rfl⟩ : ∃ b bs, bytes = b :: bs := by
    refine List.exists_cons_of_ne_nil ?_
    rintro rfl
    cases h
  obtain rfl : b = separator := by simpa [isAbsolute] using h
  have hsplit := splitNames_append_separator bs []
  have hnil : (splitNames []).filterMap Component.ofName? = [] := rfl
  simp [components, lead, hsplit, hnil]

theorem components_child (hp : p.isAbsolute) (hname : IsNormalName name) :
    (p.child name).components = p.components ++ [.name name] := by
  rw [child]
  split
  · rename_i hend
    rcases hend with hnil | hlast
    · rw [isAbsolute, hnil] at hp
      cases hp
    · obtain ⟨front, hfront⟩ := List.getLast?_eq_some_iff.1 hlast
      obtain rfl : p = ⟨front ++ [separator]⟩ := by
        cases p
        exact congrArg Path.mk hfront
      rw [List.append_assoc]
      exact components_of_name hname.separator_notMem hname.not_leadsToDir
  · rw [components_of_name hname.separator_notMem hname.not_leadsToDir,
      components_concat_separator hp]

theorem bytes_ne_nil_of_isAbsolute (h : p.isAbsolute) : p.bytes ≠ [] := by
  intro hnil
  rw [isAbsolute, hnil] at h
  cases h

end Path

/-- Going down from an absolute path adds components to its own. -/
theorem Disk.components_descend {p : Path} (hp : p.isAbsolute) {names : Location}
    (hnames : ∀ n ∈ names, IsNormalName n) :
    (descend p names).components = p.components ++ names.map .name := by
  induction names using List.reverseRecOn with
  | nil => exact (List.append_nil _).symm
  | append_singleton names name ih =>
    have habsolute : (descend p names).isAbsolute := by
      rw [isAbsolute_descend (Path.bytes_ne_nil_of_isAbsolute hp), hp]
    rw [descend_concat, Path.components_child habsolute (hnames name (by simp)),
      ih fun n hn => hnames n (List.mem_append_left _ hn), List.map_append, List.append_assoc]
    rfl

/-! ## Texts -/

namespace Utf8

/-- No separator comes out of bytes without one. -/
theorem separator_notMem_lossy {bytes : Bytes} (h : separator ∉ bytes) : '/' ∉ lossy bytes := by
  intro hmem
  obtain ⟨piece, hpiece, hshown⟩ := List.mem_map.1 hmem
  cases piece with
  | char c =>
    obtain rfl : c = '/' := hshown
    refine h ?_
    rw [← bytes_pieces bytes]
    exact List.mem_flatMap.2 ⟨.char '/', hpiece, by decide⟩
  | broken bytes =>
    have hreplacement : replacement ≠ '/' := by decide
    exact hreplacement hshown

/-- Joined names read as their texts, joined. -/
theorem lossy_joinNames (names : List Bytes) :
    lossy (joinNames names) = ['/'].intercalate (names.map lossy) := by
  induction names with
  | nil => rfl
  | cons name names ih =>
    rcases eq_or_ne names [] with rfl | hne
    · rw [joinNames_singleton, List.map_singleton, List.intercalate_singleton]
    · rw [joinNames_cons hne, lossy_append_plain Disk.isPlain_separator, ih, List.map_cons,
        List.intercalate_cons_of_ne_nil (by simpa using hne), List.append_assoc]
      rfl

/-- Names that are text are told apart by what they read as. -/
theorem map_lossy_inj {names rest : List Bytes} (h : ∀ n ∈ names ++ rest, (decode? n).isSome)
    (heq : names.map lossy = rest.map lossy) : names = rest := by
  have hback : ∀ n ∈ names ++ rest, encode (lossy n) = n := by
    intro n hn
    obtain ⟨text, htext⟩ := Option.isSome_iff_exists.1 (h n hn)
    rw [lossy_of_decode? htext, encode_of_decode? htext]
  have hnames := List.map_congr_left fun n hn => hback n (List.mem_append_left rest hn)
  have hrest := List.map_congr_left fun n hn => hback n (List.mem_append_right names hn)
  calc names
      = (names.map lossy).map encode := by rw [List.map_map]; exact (hnames.trans names.map_id').symm
    _ = (rest.map lossy).map encode := by rw [heq]
    _ = rest := by rw [List.map_map]; exact hrest.trans rest.map_id'

end Utf8

/-! ## Keys -/

namespace KeyResolver

variable {r : KeyResolver} {root : Path} {names rest : Location}

/-- The keys are whole paths, or the paths below the only root. -/
def KeysPaths (r : KeyResolver) (root : Path) : Prop :=
  r.strategy = .fullPath ∨ r.strategy = .pathRelativeToRoot ∧ r.roots = [root]

/-- **The key of a file below a root** is made of what its names read as, after a beginning that is
the same for all. -/
theorem exists_key?_descend (hroot : root.isAbsolute) (hr : r.KeysPaths root) :
    ∃ head, ∀ names : Location, names ≠ [] → (∀ n ∈ names, IsNormalName n) →
      r.key? (Disk.descend root names) =
        some (head ++ '/' :: ['/'].intercalate (names.map Utf8.lossy)) := by
  rcases hr with hstrategy | ⟨hstrategy, hroots⟩
  · obtain ⟨front, -, hbytes⟩ :=
      Disk.exists_bytes_descend (Path.bytes_ne_nil_of_isAbsolute hroot)
    refine ⟨Utf8.lossy front, fun names hne hnames => ?_⟩
    have hdown := hbytes names hne fun n hn =>
      ⟨(hnames n hn).ne_nil, (hnames n hn).separator_notMem⟩
    rw [key?, hstrategy, ← Utf8.lossy_joinNames]
    dsimp only
    rw [Path.text, hdown, Utf8.lossy_append_plain Disk.isPlain_separator]
    rfl
  · refine ⟨[], fun names hne hnames => ?_⟩
    have hcomponents := Disk.components_descend hroot hnames
    have hunder : (Disk.descend root names).IsUnder root := by
      rw [Path.IsUnder, hcomponents]
      exact List.prefix_append _ _
    have hnearest : nearestRoot? r.roots (Disk.descend root names) = some root := by
      rw [hroots]
      exact (nearestRoot?_concat [] root _).trans (if_pos hunder)
    have hrest : (names.map Component.name).filterMap Component.name? = names := by
      rw [List.filterMap_map]
      exact List.filterMap_some
    rw [key?, hstrategy]
    dsimp only
    rw [keyBelowRoot?_of_nearestRoot? hnearest, hcomponents, List.drop_left, hrest, keyOfNames?,
      if_neg hne]
    rfl

/-- Two files have the same key if and only if their names read alike. -/
theorem key?_descend_inj (hroot : root.isAbsolute) (hr : r.KeysPaths root) (hne : names ≠ [])
    (hnames : ∀ n ∈ names, IsNormalName n) (hne' : rest ≠ [])
    (hrest : ∀ n ∈ rest, IsNormalName n) :
    r.key? (Disk.descend root names) = r.key? (Disk.descend root rest) ↔
      names.map Utf8.lossy = rest.map Utf8.lossy := by
  obtain ⟨head, hkey⟩ := exists_key?_descend hroot hr
  have hsplit : ∀ l : Location, l ≠ [] → (∀ n ∈ l, IsNormalName n) →
      (['/'].intercalate (l.map Utf8.lossy)).splitOn '/' = l.map Utf8.lossy := by
    intro l hl hnormal
    refine List.splitOn_intercalate '/' (List.forall_mem_map.2 fun n hn => ?_) (by simpa using hl)
    exact Utf8.separator_notMem_lossy (hnormal n hn).separator_notMem
  rw [hkey names hne hnames, hkey rest hne' hrest, Option.some_inj, List.append_cancel_left_eq,
    List.cons_inj_right]
  constructor
  · intro heq
    rw [← hsplit names hne hnames, heq, hsplit rest hne' hrest]
  · intro heq
    rw [heq]

end KeyResolver

/-! ## Entries -/

namespace Loader

variable {r : KeyResolver} {root : Path} {names rest : Location}

/-- **Which files share a key.**  Where whole paths are keys, or the paths below the only root, every
file below the root has a key, and two of them have the same one if and only if their names read
alike; if all names are text, they are the same file then.  And whatever a loader has done: the
departure of an unmarked file drops the entry that was last read from another one and is kept under
its key, if departures of that kind count and the names of the two read alike, and otherwise it does
not. -/
theorem keys_shared_iff (hroot : root.isAbsolute) (hr : r.KeysPaths root) (hne : names ≠ [])
    (hnames : ∀ n ∈ names, IsNormalName n) (hne' : rest ≠ [])
    (hrest : ∀ n ∈ rest, IsNormalName n) :
    (∃ key other, r.key? (Disk.descend root names) = some key ∧
        r.key? (Disk.descend root rest) = some other ∧
        (key = other ↔ names.map Utf8.lossy = rest.map Utf8.lossy)) ∧
      ((∀ n ∈ names ++ rest, (Utf8.decode? n).isSome) →
        names.map Utf8.lossy = rest.map Utf8.lossy → names = rest) ∧
      ∀ (l : Loader) (steps : List LoaderStep) (key : Key) (content : Bytes) (op : Ops)
        (disk : Disk), l.resolver = r → l.LastRead steps (Disk.descend root rest) key content →
          r.key? (Disk.descend root rest) = some key →
          l.marks (Disk.descend root names) = false → op.meets (Ops.remove.union .rename) →
          ((l.after steps).handle disk ⟨Disk.descend root names, op⟩).store.get? key =
            if op.meets l.ops ∧ names.map Utf8.lossy = rest.map Utf8.lossy then none
            else some content := by
  have hiff := KeyResolver.key?_descend_inj hroot hr hne hnames hne' hrest
  refine ⟨?_, Utf8.map_lossy_inj, ?_⟩
  · obtain ⟨head, hkey⟩ := KeyResolver.exists_key?_descend hroot hr
    have hfirst := hkey names hne hnames
    have hsecond := hkey rest hne' hrest
    refine ⟨_, _, hfirst, hsecond, ?_⟩
    rw [← hiff, hfirst, hsecond, Option.some_inj]
  · rintro l steps key content op disk rfl hlast hkey hmarks hop
    have hheld := hlast.get?_after
    by_cases hany : op.meets l.ops = true
    · have hcounts : Change.isAny ⟨Disk.descend root names, op⟩ (l.after steps).ops = true := by
        rw [ops_after]
        exact hany
      have hstaged : (l.after steps).staged? (Disk.descend root names) key = none := by
        rw [← Option.isNone_iff_eq_none, ← Option.not_isSome, isSome_staged?, marks_after, hmarks]
        rfl
      rw [get?_handle_of_drop hcounts hop, resolver_after, hheld]
      refine if_congr ?_ rfl rfl
      rw [← hiff, hkey]
      simp [hany, hstaged]
    · have hsame : (l.after steps).handle disk ⟨Disk.descend root names, op⟩ = l.after steps := by
        rw [handle, ops_after]
        exact if_neg hany
      rw [hsame, hheld, if_neg fun h => hany h.1]

/-- Two files in a directory whose names are text. -/
def plainFiles : Disk :=
  ⟨[([[119]], .dir), ([[119], [102]], .file [120]), ([[119], [103]], .file [121])], []⟩

/-- One of the files appears and is loaded; when the other one is removed, its entry stays. -/
theorem keys_shared_iff_of_plainFiles :
    ∃ l, Loader.new plainFiles (.usual [⟨[47, 119]⟩]) = .ok l ∧
      (Path.mk [47, 119]).isAbsolute ∧ l.resolver.KeysPaths ⟨[47, 119]⟩ ∧
      IsNormalName [103] ∧ IsNormalName [102] ∧
      l.LastRead [.handle plainFiles ⟨⟨[47, 119, 47, 102]⟩, .create⟩] ⟨[47, 119, 47, 102]⟩
        ['/', 'w', '/', 'f'] [120] ∧
      l.resolver.key? ⟨[47, 119, 47, 102]⟩ = some ['/', 'w', '/', 'f'] ∧
      l.marks ⟨[47, 119, 47, 103]⟩ = false ∧
      ((l.after [.handle plainFiles ⟨⟨[47, 119, 47, 102]⟩, .create⟩]).handle plainFiles
        ⟨⟨[47, 119, 47, 103]⟩, .remove⟩).store.get? ['/', 'w', '/', 'f'] = some [120] := by
  obtain ⟨l, hnew⟩ : ∃ l, Loader.new plainFiles (.usual [⟨[47, 119]⟩]) = .ok l := ⟨_, rfl⟩
  have hpaths : l.resolver.KeysPaths ⟨[47, 119]⟩ := by
    cases hnew
    exact .inl rfl
  have hlast : l.LastRead [.handle plainFiles ⟨⟨[47, 119, 47, 102]⟩, .create⟩]
      ⟨[47, 119, 47, 102]⟩ ['/', 'w', '/', 'f'] [120] := by
    cases hnew
    exact ⟨[], [], rfl, nofun⟩
  have hkey : l.resolver.key? ⟨[47, 119, 47, 102]⟩ = some ['/', 'w', '/', 'f'] := by
    cases hnew
    rfl
  have hmarks : l.marks ⟨[47, 119, 47, 103]⟩ = false := by
    cases hnew
    rfl
  have hnames : ∀ n ∈ [[103]], IsNormalName n := by decide
  have hrest : ∀ n ∈ [[102]], IsNormalName n := by decide
  obtain ⟨-, -, hentry⟩ := keys_shared_iff rfl hpaths (List.cons_ne_nil _ _) hnames
    (List.cons_ne_nil _ _) hrest
  exact ⟨l, hnew, rfl, hpaths, by decide, by decide, hlast, hkey, hmarks,
    (hentry l _ _ _ .remove plainFiles rfl hlast hkey hmarks rfl).trans
      (if_neg fun h => absurd h.2 (by decide))⟩

/-- Two files in a directory whose names are no text, a single byte each. -/
def twinFiles : Disk :=
  ⟨[([[119]], .dir), ([[119], [255]], .file [120]), ([[119], [254]], .file [121])], []⟩

/-- What is left when one of them is removed. -/
def leftTwin : Disk := ⟨[([[119]], .dir), ([[119], [255]], .file [120])], []⟩

/-- **A file that is still there loses its entry** when its twin is removed, which shares its key. -/
theorem twin_evicted : ∃ l, Loader.new twinFiles (.usual [⟨[47, 119]⟩]) = .ok l ∧
    l.resolver.strategy = .fullPath ∧ IsNormalName [255] ∧ IsNormalName [254] ∧
    l.resolver.key? ⟨[47, 119, 47, 255]⟩ = l.resolver.key? ⟨[47, 119, 47, 254]⟩ ∧
    (KeyResolver.make .pathRelativeToRoot none [⟨[47, 119]⟩]).key? ⟨[47, 119, 47, 255]⟩ =
      (KeyResolver.make .pathRelativeToRoot none [⟨[47, 119]⟩]).key? ⟨[47, 119, 47, 254]⟩ ∧
    l.LastRead [.handle twinFiles ⟨⟨[47, 119, 47, 255]⟩, .create⟩] ⟨[47, 119, 47, 255]⟩
      ['/', 'w', '/', Utf8.replacement] [120] ∧
    l.marks ⟨[47, 119, 47, 254]⟩ = false ∧
    leftTwin.read ⟨[47, 119, 47, 255]⟩ = .ok [120] ∧
    ((l.after [.handle twinFiles ⟨⟨[47, 119, 47, 255]⟩, .create⟩]).handle leftTwin
      ⟨⟨[47, 119, 47, 254]⟩, .remove⟩).store.get? ['/', 'w', '/', Utf8.replacement] = none := by
  obtain ⟨l, hnew⟩ : ∃ l, Loader.new twinFiles (.usual [⟨[47, 119]⟩]) = .ok l := ⟨_, rfl⟩
  refine ⟨l, hnew, ?_⟩
  cases hnew
  exact ⟨rfl, by decide, by decide, rfl, rfl, ⟨[], [], rfl, nofun⟩, rfl, rfl, rfl⟩

end Loader

end CertRotation
