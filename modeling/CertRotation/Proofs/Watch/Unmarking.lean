import CertRotation.Proofs.Path.LastName
import CertRotation.Proofs.Watch.NearestRoot
import CertRotation.Proofs.Watch.Scan

/-!
# Where the mark is taken off

The mark of a staged copy is looked for twice, in the path and in the key, each time from the
beginning, and each time the first match is taken off.  Nothing makes the two matches the same one.
A pattern that finds something in the name of a directory, or in that of a root, redirects every
path below to some other place, which may lie outside all roots, and what is found there may be kept
under a key that it would not have itself.

If both matches lie in the last name of the path and at the same place there, what is loaded is a
neighbour of the staged copy and is kept under its own key.  That is so for the usual mark.

* `Pattern.le_of_find?` — a match lies within the text;
* `Loader.MarksName` — of a marked path only the last name is marked;
* `KeyResolver.exists_key?_renamed` — what becomes of the key if the last name is another one;
* `Loader.source?_of_marksName` — what a path stands for whose last name is marked;
* `Loader.loaded_of_handle` — **what a change that loads puts into the store**;
* `Loader.marksName_of_isMarked` — the usual mark.
-/

set_option autoImplicit false

namespace CertRotation

/-! ## Matches -/

namespace Pattern

/-- A match goes on at most to the end of the text. -/
theorem le_of_run {text : List Char} {threads : List Pattern} {prev : Option Char} {length m : Nat}
    {best : Option Nat} (hbest : ∀ n ∈ best, n ≤ length)
    (h : run threads prev text length best = some m) : m ≤ length + text.length := by
  induction text generalizing threads prev length best with
  | nil =>
    rw [run] at h
    split at h
    · cases h
      exact Nat.le_refl _
    · exact hbest m h
  | cons c text ih =>
    rw [run] at h
    dsimp only at h
    have hbest' : ∀ ended : Bool, ∀ n ∈ (if ended then some length else best), n ≤ length := by
      intro ended n hn
      split at hn
      · cases hn
        exact Nat.le_refl _
      · exact hbest n hn
    rw [List.length_cons]
    split at h
    · exact (hbest' _ m h).trans (Nat.le_add_right _ _)
    · have hm := ih (fun n hn => (hbest' _ n hn).trans (Nat.le_succ length)) h
      omega

theorem le_of_findFrom {p : Pattern} {text : List Char} {prev : Option Char}
    {skipped start length : Nat} (h : p.findFrom prev text skipped = some (start, length)) :
    start + length ≤ skipped + text.length := by
  induction text generalizing prev skipped with
  | nil =>
    rw [findFrom, Option.map_eq_some_iff] at h
    obtain ⟨n, hrun, heq⟩ := h
    cases heq
    have hn := le_of_run (by simp) hrun
    omega
  | cons c text ih =>
    rw [findFrom] at h
    split at h
    · rename_i n hrun
      cases h
      have hn := le_of_run (by simp) hrun
      omega
    · have hlater := ih h
      rw [List.length_cons]
      omega

/-- **A match lies within the text.** -/
theorem le_of_find? {p : Pattern} {text : List Char} {start length : Nat}
    (h : p.find? text = some (start, length)) : start + length ≤ text.length := by
  have hle := le_of_findFrom h
  omega

end Pattern

/-! ## Keys and last names -/

/-- A key below a root, with a separator before each name. -/
theorem cons_intercalate_separator {names : List (List Char)} (h : names ≠ []) :
    '/' :: ['/'].intercalate names = names.flatMap fun name => '/' :: name := by
  induction names with
  | nil => exact absurd rfl h
  | cons name names ih =>
    cases names with
    | nil => simp [List.intercalate]
    | cons other rest =>
      rw [List.flatMap_cons, ← ih (by simp)]
      simp [List.intercalate]

namespace KeyResolver

variable {r : KeyResolver} {front : Bytes} {name rest : List Char} {key other : Key}

/-- What a key leaves out at the end of a name. -/
def omitted (r : KeyResolver) : List Char :=
  match r.strategy with
  | .nameNoExtension => r.extension.getD []
  | _ => []

/-- What names of characters make of a key below a root. -/
theorem keyOfNames?_concat (names : List Bytes) (name : List Char) :
    keyOfNames? (names ++ [Utf8.encode name]) =
      some ((names.flatMap fun n => '/' :: Utf8.lossy n) ++ '/' :: name) := by
  rw [keyOfNames?, if_neg (by simp), cons_intercalate_separator (by simp), List.map_append,
    List.flatMap_append, List.flatMap_map, List.map_singleton, List.flatMap_singleton,
    Utf8.lossy_of_decode? (Utf8.decode?_encode name)]

theorem fileName?_of_name (hsep : '/' ∉ name) (hname : ¬ Disk.LeadsToDir (Utf8.encode name)) :
    fileName? ⟨front ++ separator :: Utf8.encode name⟩ = some name := by
  rw [fileName?, Path.fileName?,
    Path.components_of_name (Utf8.separator_notMem_encode hsep) hname, List.getLast?_concat]
  exact Utf8.decode?_encode name

theorem stripEnding?_eq_some {text ending stem : List Char} :
    stripEnding? text ending = some stem ↔ text = stem ++ ending := by
  rw [stripEnding?]
  constructor
  · intro h
    split at h
    · rename_i hending
      obtain ⟨front, rfl⟩ := hending
      rw [List.length_append, Nat.add_sub_cancel, List.take_left] at h
      rw [Option.some.inj h]
    · cases h
  · rintro rfl
    rw [if_pos (List.suffix_append _ _), List.length_append, Nat.add_sub_cancel, List.take_left]

theorem key?_noExtension {extension : List Char} {roots : List Path} {p : Path} :
    key? ⟨.nameNoExtension, some extension, roots⟩ p = some key ↔
      key ≠ [] ∧ fileName? p = some (key ++ extension) := by
  simp only [key?, Option.bind_eq_bind, Option.bind_some, Option.bind_eq_some_iff,
    stripEnding?_eq_some, List.isEmpty_iff]
  constructor
  · rintro ⟨name, hname, stem, rfl, h⟩
    split at h
    · cases h
    · cases h
      exact ⟨‹_›, hname⟩
  · rintro ⟨hne, hname⟩
    exact ⟨_, hname, key, rfl, if_neg hne⟩

/-- The names between a root with some number of components and the last name of a path, as they
stand in a key. -/
def keyAbove (front : Bytes) (depth : Nat) : Key :=
  (((Path.mk (front ++ [separator])).components.drop depth).filterMap Component.name?).flatMap
    fun name => '/' :: Utf8.lossy name

/-- The key below a root of a path with a proper last name. -/
theorem keyBelowRoot?_of_name {roots : List Path} {root : Path} (hsep : '/' ∉ name)
    (hname : ¬ Disk.LeadsToDir (Utf8.encode name))
    (hroot : nearestRoot? roots ⟨front ++ separator :: Utf8.encode name⟩ = some root)
    (habove : root.components <+: (Path.mk (front ++ [separator])).components) :
    keyBelowRoot? roots ⟨front ++ separator :: Utf8.encode name⟩ =
      some (keyAbove front root.components.length ++ '/' :: name) := by
  rw [keyBelowRoot?_of_nearestRoot? hroot,
    Path.components_of_name (Utf8.separator_notMem_encode hsep) hname,
    List.drop_append_of_le_length habove.length_le, List.filterMap_append]
  exact keyOfNames?_concat _ name

/-- The nearest root of a path with a key below it is not the path itself. -/
theorem nearestRoot?_above {roots : List Path} (hsep : '/' ∉ name)
    (hname : ¬ Disk.LeadsToDir (Utf8.encode name))
    (h : keyBelowRoot? roots ⟨front ++ separator :: Utf8.encode name⟩ = some key) :
    ∃ root, nearestRoot? roots ⟨front ++ separator :: Utf8.encode name⟩ = some root ∧
      root.components <+: (Path.mk (front ++ [separator])).components := by
  cases hroot : nearestRoot? roots ⟨front ++ separator :: Utf8.encode name⟩ with
  | none =>
    rw [keyBelowRoot?_eq, hroot] at h
    cases h
  | some root =>
    refine ⟨root, rfl, ?_⟩
    obtain ⟨-, hunder, -⟩ := deepest_of_nearestRoot? hroot
    rw [Path.IsUnder, Path.components_of_name (Utf8.separator_notMem_encode hsep) hname,
      List.prefix_concat_iff] at hunder
    refine hunder.resolve_left fun heq => ?_
    rw [keyBelowRoot?_of_nearestRoot? hroot,
      Path.components_of_name (Utf8.separator_notMem_encode hsep) hname, heq, List.drop_length] at h
    cases h

/-- With another last name the nearest root is at the same depth, unless the path is a root then. -/
theorem exists_nearestRoot?_renamed {roots : List Path} {root : Path} (hsep : '/' ∉ name)
    (hname : ¬ Disk.LeadsToDir (Utf8.encode name)) (hsep' : '/' ∉ rest)
    (hrest : ¬ Disk.LeadsToDir (Utf8.encode rest))
    (hroot : nearestRoot? roots ⟨front ++ separator :: Utf8.encode name⟩ = some root)
    (habove : root.components <+: (Path.mk (front ++ [separator])).components)
    (hnot : ∀ root ∈ roots, ¬ (Path.mk (front ++ separator :: Utf8.encode rest)).same root) :
    ∃ nearest, nearestRoot? roots ⟨front ++ separator :: Utf8.encode rest⟩ = some nearest ∧
      nearest.components <+: (Path.mk (front ++ [separator])).components ∧
      nearest.components.length = root.components.length := by
  have hunder : ∀ {other : Path} {n : List Char}, '/' ∉ n → ¬ Disk.LeadsToDir (Utf8.encode n) →
      other.components <+: (Path.mk (front ++ [separator])).components →
      (Path.mk (front ++ separator :: Utf8.encode n)).IsUnder other := by
    intro other n hsep hname hother
    rw [Path.IsUnder, Path.components_of_name (Utf8.separator_notMem_encode hsep) hname]
    exact hother.trans (List.prefix_append _ _)
  obtain ⟨hmem, -, hdeepest⟩ := deepest_of_nearestRoot? hroot
  obtain ⟨nearest, hnearest⟩ := exists_nearestRoot? hmem (hunder hsep' hrest habove)
  obtain ⟨hmem', hunder', hdeepest'⟩ := deepest_of_nearestRoot? hnearest
  have habove' : nearest.components <+: (Path.mk (front ++ [separator])).components := by
    rw [Path.IsUnder, Path.components_of_name (Utf8.separator_notMem_encode hsep') hrest,
      List.prefix_concat_iff] at hunder'
    refine hunder'.resolve_left fun heq => hnot nearest hmem' (Path.same_iff.2 ?_)
    rw [heq, Path.components_of_name (Utf8.separator_notMem_encode hsep') hrest]
  exact ⟨nearest, hnearest, habove', Nat.le_antisymm
    (hdeepest nearest hmem' (hunder hsep hname habove')).length_le
    (hdeepest' root hmem (hunder hsep' hrest habove)).length_le⟩

/-- **Another last name.**  A key, with what it leaves out, ends in the last name of the path, and
with another last name the path has the key that ends in that one.  Below a root that is so unless
the path with the other name is a root itself, and a name has to be more than its extension. -/
theorem exists_key?_renamed (hsep : '/' ∉ name) (hname : ¬ Disk.LeadsToDir (Utf8.encode name))
    (h : r.key? ⟨front ++ separator :: Utf8.encode name⟩ = some key) :
    ∃ before, key ++ r.omitted = before ++ name ∧
      ∀ rest other, '/' ∉ rest → ¬ Disk.LeadsToDir (Utf8.encode rest) →
        (r.strategy = .pathRelativeToRoot → ∀ root ∈ r.roots,
          ¬ (Path.mk (front ++ separator :: Utf8.encode rest)).same root) →
        (r.strategy = .nameNoExtension → other ≠ []) →
        other ++ r.omitted = before ++ rest →
        r.key? ⟨front ++ separator :: Utf8.encode rest⟩ = some other := by
  obtain ⟨strategy, extension, roots⟩ := r
  cases strategy with
  | fullPath =>
    have htext : ∀ n, (Path.mk (front ++ separator :: Utf8.encode n)).text =
        Utf8.lossy front ++ '/' :: n := by
      intro n
      rw [Path.text, Utf8.lossy_append_plain Disk.isPlain_separator,
        Utf8.lossy_of_decode? (Utf8.decode?_encode n)]
      rfl
    refine ⟨Utf8.lossy front ++ ['/'], ?_, fun rest other _ _ _ _ heq => ?_⟩
    · have hkey := Option.some.inj h
      rw [htext] at hkey
      simp [omitted, ← hkey]
    · rw [key?, htext]
      simpa [omitted] using heq.symm
  | nameWithExtension =>
    have hfile : fileName? ⟨front ++ separator :: Utf8.encode name⟩ = some name :=
      fileName?_of_name hsep hname
    refine ⟨[], ?_, fun rest other hsep' hrest _ _ heq => ?_⟩
    · rw [key?, hfile] at h
      simpa [omitted] using (Option.some.inj h).symm
    · rw [key?, fileName?_of_name hsep' hrest]
      simpa [omitted] using heq.symm
  | nameNoExtension =>
    cases extension with
    | none => cases h
    | some extension =>
      obtain ⟨-, hfile⟩ := key?_noExtension.1 h
      rw [fileName?_of_name hsep hname] at hfile
      refine ⟨[], (Option.some.inj hfile).symm, fun rest other hsep' hrest _ hother heq => ?_⟩
      rw [List.nil_append] at heq
      exact key?_noExtension.2 ⟨hother rfl, by rw [fileName?_of_name hsep' hrest, ← heq]; rfl⟩
  | pathRelativeToRoot =>
    obtain ⟨root, hroot, habove⟩ := nearestRoot?_above hsep hname h
    have hkey : keyBelowRoot? roots _ = some key := h
    rw [keyBelowRoot?_of_name hsep hname hroot habove] at hkey
    refine ⟨keyAbove front root.components.length ++ ['/'], ?_,
      fun rest other hsep' hrest hnot _ heq => ?_⟩
    · simp [omitted, ← Option.some.inj hkey]
    · obtain ⟨nearest, hnearest, habove', hlength⟩ :=
        exists_nearestRoot?_renamed hsep hname hsep' hrest hroot habove (hnot rfl)
      show keyBelowRoot? roots _ = _
      rw [keyBelowRoot?_of_name hsep' hrest hnearest habove', hlength]
      simpa [omitted] using heq.symm

end KeyResolver

namespace Loader

variable {disk : Disk} {l : Loader} {p root : Path} {raw key : Key}

/-! ## What a marked path stands for -/

/-- Only the last name is marked: what is taken off the path begins after its last separator, and
what is taken off the key is as long and begins at the same place of the name. -/
def MarksName (l : Loader) (p : Path) (raw : Key) : Prop :=
  ∃ marker text start place length, l.marker = some marker ∧ Utf8.decode? p.bytes = some text ∧
    marker.find? text = some (start, length) ∧ '/' ∉ text.drop start ∧
    marker.find? raw = some (place, length) ∧
    text.length - start = (raw ++ l.resolver.omitted).length - place

theorem exists_of_isAbsolute {text : List Char} (habsolute : p.isAbsolute)
    (htext : Utf8.decode? p.bytes = some text) : ∃ more, text = '/' :: more := by
  obtain ⟨bytes⟩ := p
  rw [Path.isAbsolute, beq_iff_eq] at habsolute
  obtain ⟨rest, rfl⟩ := List.head?_eq_some_iff.1 habsolute
  have hread := Utf8.decode?_append_plain Disk.isPlain_separator [] rest
  rw [List.nil_append, htext] at hread
  cases hrest : Utf8.decode? rest with
  | none =>
    rw [hrest] at hread
    cases hread
  | some more =>
    rw [hrest] at hread
    exact ⟨more, Option.some.inj hread⟩

/-- A path whose last name is marked is divided before that name, and it stands for the path with
what is left of the name. -/
theorem exists_of_marksName (habsolute : p.isAbsolute) (hraw : l.resolver.key? p = some raw)
    (hm : l.MarksName p raw) :
    ∃ front name rest key, p = ⟨front ++ separator :: Utf8.encode name⟩ ∧
      l.source? p = some (⟨front ++ separator :: Utf8.encode rest⟩, key) ∧
      '/' ∉ name ∧ rest.Sublist name ∧
      ∀ before, raw ++ l.resolver.omitted = before ++ name →
        key ++ l.resolver.omitted = before ++ rest := by
  obtain ⟨marker, text, start, place, length, hmarker, htext, hfind, hsep, hfind', hlength⟩ := hm
  have hbytes := Utf8.encode_of_decode? htext
  -- The text begins with a separator, so there is a last one, and the match comes after it.
  have hmem : '/' ∈ text.take start := by
    obtain ⟨more, rfl⟩ := exists_of_isAbsolute habsolute htext
    cases start with
    | zero => exact absurd List.mem_cons_self hsep
    | succ start => exact List.mem_cons_self
  obtain ⟨front, a, hfront, ha⟩ := exists_last_split hmem
  have hsplit : text = front ++ '/' :: (a ++ text.drop start) := by
    rw [← List.cons_append, ← List.append_assoc, ← hfront, List.take_append_drop]
  have herase : marker.eraseFirst text =
      front ++ '/' :: (a ++ text.drop (start + length)) := by
    rw [Pattern.eraseFirst, hfind]
    dsimp only
    rw [hfront, List.append_assoc, List.cons_append]
  refine ⟨Utf8.encode front, a ++ text.drop start, a ++ text.drop (start + length),
    marker.eraseFirst raw, ?_, ?_, ?_, ?_, fun before hbefore => ?_⟩
  · obtain ⟨bytes⟩ := p
    rw [← Utf8.encode_cons_separator, ← Utf8.encode_append, ← hsplit]
    exact congrArg Path.mk hbytes.symm
  · have hstaged : l.staged? p raw =
        some (⟨Utf8.encode (marker.eraseFirst text)⟩, marker.eraseFirst raw) := by
      simp [staged?, hmarker, htext, Pattern.occursIn, hfind]
    rw [source?, hraw, Option.map_some, hstaged, herase, Utf8.encode_append,
      Utf8.encode_cons_separator]
    rfl
  · simp [ha, hsep]
  · rw [← List.drop_drop]
    exact (List.Sublist.refl a).append (List.drop_sublist _ _)
  · have hle := Pattern.le_of_find? hfind'
    have hplace : (before ++ a).length = place := by
      have hwhole := congrArg List.length hbefore
      simp only [List.length_append, List.length_drop] at hwhole hlength ⊢
      omega
    rw [Pattern.eraseFirst, hfind']
    dsimp only
    calc raw.take place ++ raw.drop (place + length) ++ l.resolver.omitted
        = (raw ++ l.resolver.omitted).take place ++
            (raw ++ l.resolver.omitted).drop (place + length) := by
          rw [List.take_append_of_le_length (by omega), List.drop_append_of_le_length hle,
            List.append_assoc]
      _ = before ++ (a ++ text.drop (start + length)) := by
          rw [hbefore, ← List.append_assoc, List.take_left' hplace, ← List.drop_drop,
            List.drop_left' hplace, List.drop_drop, List.append_assoc]

/-- **What a path stands for whose last name is marked**, if that is anything that can be read: a
neighbour of the path, which lies under the same roots as the path does and, with the exceptions
that keys have, has the key that its content is kept under. -/
theorem source?_of_marksName (tree : disk.IsTree) (habsolute : p.isAbsolute)
    (hraw : l.resolver.key? p = some raw) (hm : l.MarksName p raw) {t : Path} {content : Bytes}
    (hsource : l.source? p = some (t, key)) (hread : disk.read t = .ok content) :
    (∃ name, t.components = p.components.dropLast ++ [.name name]) ∧
      (∀ root, p.IsUnder root → ¬ p.same root → t.IsUnder root) ∧
      ((l.resolver.strategy = .pathRelativeToRoot → ∀ root ∈ l.resolver.roots, ¬ t.same root) →
        (l.resolver.strategy = .nameNoExtension → key ≠ []) → l.resolver.key? t = some key) := by
  obtain ⟨front, name, rest, other, rfl, hsource', hsep, hsub, hkeys⟩ :=
    exists_of_marksName habsolute hraw hm
  rw [hsource] at hsource'
  cases hsource'
  have hsep' : '/' ∉ rest := fun h => hsep (hsub.subset h)
  have hrest : ¬ Disk.LeadsToDir (Utf8.encode rest) := fun h =>
    Disk.read_leadsToDir tree h (Utf8.separator_notMem_encode hsep') hread
  -- A name that is no name stays none when something is taken off it.
  have hname : ¬ Disk.LeadsToDir (Utf8.encode name) := fun h =>
    hrest (Disk.leadsToDir_encode_iff.2 (hsub.trans (Disk.leadsToDir_encode_iff.1 h)))
  have hcomponents : (Path.mk (front ++ separator :: Utf8.encode name)).components = _ :=
    Path.components_of_name (Utf8.separator_notMem_encode hsep) hname
  have hcomponents' : (Path.mk (front ++ separator :: Utf8.encode rest)).components = _ :=
    Path.components_of_name (Utf8.separator_notMem_encode hsep') hrest
  refine ⟨⟨Utf8.encode rest, ?_⟩, fun root hunder hsame => ?_, fun hnot hne => ?_⟩
  · rw [hcomponents, hcomponents', List.dropLast_concat]
  · rw [Path.same_iff, hcomponents] at hsame
    rw [Path.IsUnder, hcomponents, List.prefix_concat_iff] at hunder
    rw [Path.IsUnder, hcomponents']
    exact (hunder.resolve_left (Ne.symm hsame)).trans (List.prefix_append _ _)
  · obtain ⟨before, hbefore, hrenamed⟩ := KeyResolver.exists_key?_renamed hsep hname hraw
    exact hrenamed rest key hsep' hrest hnot hne (hkeys before hbefore)

/-- Under their whole path, files have the keys that they are kept under. -/
theorem key?_of_fullPath (hstrategy : l.resolver.strategy = .fullPath) {t : Path}
    (h : l.source? p = some (t, key)) : l.resolver.key? t = some key := by
  have hkey : ∀ q, l.resolver.key? q = some q.text := fun q => by
    rw [KeyResolver.key?, hstrategy]
  rw [source?, hkey, Option.map_some, Option.some.injEq] at h
  rw [hkey]
  cases hstaged : l.staged? p p.text with
  | none =>
    rw [hstaged] at h
    cases h
    rfl
  | some source =>
    rw [hstaged, Option.getD_some] at h
    rw [staged?] at hstaged
    simp only [Option.bind_eq_bind, Option.bind_eq_some_iff] at hstaged
    obtain ⟨marker, -, text, htext, hstaged⟩ := hstaged
    split at hstaged
    · cases hstaged
      cases h
      rw [Path.text, Path.text, Utf8.lossy_of_decode? (Utf8.decode?_encode _),
        Utf8.lossy_of_decode? htext]
    · cases hstaged

/-! ## The usual mark -/

/-- **The usual mark is taken off the last name**, unless extensions end in it. -/
theorem marksName_of_isMarked (hmarker : l.marker = some Pattern.finalTilde) (hp : p.IsMarked)
    (habsolute : p.isAbsolute) (hraw : l.resolver.key? p = some raw)
    (homitted : l.resolver.omitted.getLast? ≠ some '~') : l.MarksName p raw := by
  obtain ⟨before, rfl, hbefore⟩ := Path.isMarked_iff.1 hp
  obtain ⟨start, hstart⟩ := Option.isSome_iff_exists.1 hbefore
  have htext : Utf8.decode? (before ++ [tilde]) = some (start ++ ['~']) := by
    rw [decode?_tilde, hstart]
    rfl
  -- The last name ends in the mark as the path does, and so does the key, which leaves nothing out.
  obtain ⟨more, hmore⟩ := exists_of_isAbsolute habsolute htext
  obtain ⟨front, name, hsplit, hsep⟩ := exists_last_split (a := '/') (l := start ++ ['~'])
    (by rw [hmore]; exact List.mem_cons_self)
  have hlast : name.getLast? = some '~' := by
    have hwhole := congrArg List.getLast? hsplit
    rw [List.getLast?_concat, List.getLast?_append_cons] at hwhole
    cases name with
    | nil => simp at hwhole
    | cons c name => rw [hwhole, List.getLast?_cons_cons]
  have hname : ¬ Disk.LeadsToDir (Utf8.encode name) := by
    rw [Disk.leadsToDir_encode_iff]
    intro hsub
    have hdot := hsub.subset (List.mem_of_getLast? hlast)
    simp at hdot
  have hbytes : before ++ [tilde] = Utf8.encode front ++ separator :: Utf8.encode name := by
    rw [← Utf8.encode_of_decode? htext, hsplit, Utf8.encode_append, Utf8.encode_cons_separator]
  rw [hbytes] at hraw
  obtain ⟨above, habove, -⟩ := KeyResolver.exists_key?_renamed hsep hname hraw
  have hwhole : (raw ++ l.resolver.omitted).getLast? = some '~' := by
    rw [habove, List.getLast?_append, hlast]
    rfl
  have hnone : l.resolver.omitted = [] := by
    by_contra hne
    rw [List.getLast?_append_of_ne_nil _ hne] at hwhole
    exact homitted hwhole
  rw [hnone, List.append_nil] at hwhole
  obtain ⟨rest, rfl⟩ := List.getLast?_eq_some_iff.1 hwhole
  refine ⟨_, _, start.length, rest.length, 1, hmarker, htext, ?_, ?_, ?_, ?_⟩
  · rw [Pattern.find?_finalTilde, if_pos List.getLast?_concat]
    simp
  · rw [List.drop_left]
    decide
  · rw [Pattern.find?_finalTilde, if_pos List.getLast?_concat]
    simp
  · simp [hnone]

/-! ## Changes that load -/

theorem isAbsolute_of_resolvePath {q : Path} (h : resolvePath disk p = .ok q) : q.isAbsolute := by
  rw [resolvePath] at h
  cases hcanonical : disk.canonical p with
  | error fault =>
    rw [hcanonical] at h
    cases h
  | ok resolved =>
    rw [hcanonical] at h
    cases h
    rw [Disk.canonical, bind_eq_ok] at hcanonical
    obtain ⟨place, -, hcanonical⟩ := hcanonical
    dsimp only at hcanonical
    split at hcanonical
    · cases hcanonical
    · cases hcanonical
      rfl

theorem isAbsolute_of_resolveAll {paths roots : List Path} (h : resolveAll disk paths = .ok roots) :
    ∀ root ∈ roots, root.isAbsolute := by
  induction paths generalizing roots with
  | nil =>
    cases h
    exact nofun
  | cons q paths ih =>
    rw [resolveAll, List.mapM_cons, bind_eq_ok] at h
    obtain ⟨first, hfirst, h⟩ := h
    rw [bind_eq_ok] at h
    obtain ⟨others, hothers, h⟩ := h
    cases h
    exact List.forall_mem_cons.2 ⟨isAbsolute_of_resolvePath hfirst, ih hothers⟩

/-- The roots of a new loader are absolute, and its keys are counted from them. -/
theorem roots_of_new {c : LoaderConfig} (h : new disk c = .ok l) :
    l.resolver.roots = l.roots ∧ ∀ root ∈ l.roots, root.isAbsolute := by
  rw [new] at h
  split at h
  · cases h
  rw [bind_eq_ok] at h
  obtain ⟨roots, hroots, h⟩ := h
  split at h
  · cases h
  split at h
  · cases h
  rw [bind_eq_ok] at h
  obtain ⟨marker, -, h⟩ := h
  cases h
  exact ⟨rfl, isAbsolute_of_resolveAll hroots⟩

/-- **What a change that loads puts into the store.**  It is the content of the file that the path
stands for, if that can be read and is not empty, and nothing else happens.  For a path without the
mark it is the file itself under its own key, and where whole paths are keys, what is loaded is
always kept under its own key.  Where only the last name is marked, the file is a neighbour of the
path below the same root, and it is kept under its own key unless it is a root and has none, or its
name is nothing but the extension. -/
theorem loaded_of_handle {disk₀ : Disk} {c : LoaderConfig} (hnew : new disk₀ c = .ok l)
    (tree : disk.IsTree) (hroot : root ∈ l.roots) (hunder : p.IsUnder root) {op : Ops}
    (hfilter : op.meets l.ops) (hop : op.meets (Ops.remove.union .rename) = false) :
    l.handle disk ⟨p, op⟩ =
        { l with store := l.store.insertAll (l.supply? disk p).toList } ∧
      ∀ key content, l.supply? disk p = some (key, content) → ∃ t raw,
        l.source? p = some (t, key) ∧ disk.read t = .ok content ∧ content ≠ [] ∧
        l.resolver.key? p = some raw ∧
        (l.marks p = false → t = p ∧ l.resolver.key? t = some key) ∧
        (l.resolver.strategy = .fullPath → l.resolver.key? t = some key) ∧
        (l.MarksName p raw → ¬ p.same root →
          t.IsUnder root ∧ (∃ name, t.components = p.components.dropLast ++ [.name name]) ∧
            ((l.resolver.strategy = .pathRelativeToRoot → ∀ r ∈ l.roots, ¬ t.same r) →
              (l.resolver.strategy = .nameNoExtension → key ≠ []) →
              l.resolver.key? t = some key)) := by
  obtain ⟨hroots, habsolute⟩ := roots_of_new hnew
  refine ⟨?_, fun key content hsupply => ?_⟩
  · have hany : Change.isAny ⟨p, op⟩ l.ops = true := hfilter
    rw [handle, if_pos hany, apply_load hop]
  obtain ⟨t, hsource, hread, hne⟩ := supply?_eq_some_iff.1 hsupply
  obtain ⟨raw, hraw, -⟩ := Option.map_eq_some_iff.1 hsource
  refine ⟨t, raw, hsource, hread, hne, hraw, fun hmarks => ?_,
    fun hstrategy => key?_of_fullPath hstrategy hsource, fun hm hsame => ?_⟩
  · rw [source?_of_not_marks hmarks, hraw] at hsource
    cases hsource
    exact ⟨rfl, hraw⟩
  · obtain ⟨hname, hbelow, hkey⟩ := source?_of_marksName tree
      (hunder.isAbsolute (habsolute root hroot)) hraw hm hsource hread
    rw [hroots] at hkey
    exact ⟨hbelow root hunder hsame, hname, hkey⟩

/-- A file in a directory. -/
def innerFile : Disk :=
  ⟨[([[119]], .dir), ([[119], [100]], .dir), ([[119], [100], [102]], .file [120])], []⟩

/-- The keys below the root are counted from there. -/
def relativeKeys : LoaderConfig :=
  { LoaderConfig.usual [⟨[47, 119]⟩] with strategy := .pathRelativeToRoot }

/-- A staged copy of the file appears, and the file is loaded under its own key. -/
theorem loaded_of_staged : ∃ l, Loader.new innerFile relativeKeys = .ok l ∧
    l.roots = [⟨[47, 119]⟩] ∧
    (l.handle innerFile ⟨⟨[47, 119, 47, 100, 47, 102, 126]⟩, .create⟩).store.get?
      ['/', 'd', '/', 'f'] = some [120] ∧
    l.resolver.key? ⟨[47, 119, 47, 100, 47, 102]⟩ = some ['/', 'd', '/', 'f'] := by
  obtain ⟨l, hnew⟩ : ∃ l, Loader.new innerFile relativeKeys = .ok l := ⟨_, rfl⟩
  have hroots : l.roots = [⟨[47, 119]⟩] := by
    cases hnew
    rfl
  have hops : Ops.create.meets l.ops = true := by
    cases hnew
    rfl
  have hraw : l.resolver.key? ⟨[47, 119, 47, 100, 47, 102, 126]⟩ =
      some ['/', 'd', '/', 'f', '~'] := by
    cases hnew
    decide
  have hsupply : l.supply? innerFile ⟨[47, 119, 47, 100, 47, 102, 126]⟩ =
      some (['/', 'd', '/', 'f'], [120]) := by
    cases hnew
    decide
  have hsource : l.source? ⟨[47, 119, 47, 100, 47, 102, 126]⟩ =
      some (⟨[47, 119, 47, 100, 47, 102]⟩, ['/', 'd', '/', 'f']) := by
    cases hnew
    decide
  have hmark : l.MarksName ⟨[47, 119, 47, 100, 47, 102, 126]⟩ ['/', 'd', '/', 'f', '~'] := by
    refine marksName_of_isMarked ?_ ⟨by decide, by decide⟩ (by decide) hraw ?_
    · cases hnew
      decide
    · cases hnew
      decide
  have tree : innerFile.IsTree := by decide
  have hroot : (⟨[47, 119]⟩ : Path) ∈ l.roots := by simp [hroots]
  have hunder : Path.IsUnder ⟨[47, 119, 47, 100, 47, 102, 126]⟩ ⟨[47, 119]⟩ := by decide
  obtain ⟨hhandle, hloads⟩ := loaded_of_handle hnew tree hroot hunder hops (by decide)
  obtain ⟨t, raw, ht, -, -, hkey, -, -, hmarked⟩ := hloads _ _ hsupply
  rw [hraw] at hkey
  cases hkey
  rw [hsource] at ht
  cases ht
  obtain ⟨-, -, hown⟩ := hmarked hmark (by decide)
  refine ⟨l, hnew, hroots, ?_, hown (fun _ => ?_) fun _ => by simp⟩
  · rw [hhandle, hsupply, Option.toList_some, Store.get?_insertAll]
    rfl
  · rw [hroots]
    decide

/-- A file in a directory with a tilde in its name, and what stands where the directory would be
without it. -/
def markedRoot : Disk :=
  ⟨[([[119, 126, 49]], .dir), ([[119, 126, 49], [99]], .file [120]), ([[119, 49]], .dir),
    ([[119, 49], [99]], .file [121])], []⟩

/-- Every tilde is a mark. -/
def anyTilde : LoaderConfig :=
  { LoaderConfig.usual [⟨[47, 119, 126, 49]⟩] with marker := some ['~'] }

/-- **A file outside the roots is loaded**: the mark is found in the name of the root, so that every
path below it is redirected.  No path below the root leads to what is loaded and has its key. -/
theorem outside_loaded : ∃ l, Loader.new markedRoot anyTilde = .ok l ∧
    l.roots = [⟨[47, 119, 126, 49]⟩] ∧ markedRoot.IsTree ∧ Ops.create.meets l.ops = true ∧
    (Path.mk [47, 119, 126, 49, 47, 99]).IsUnder ⟨[47, 119, 126, 49]⟩ ∧
    (l.handle markedRoot ⟨⟨[47, 119, 126, 49, 47, 99]⟩, .create⟩).store.entries =
      [(['/', 'w', '1', '/', 'c'], [121])] ∧
    ¬ ∃ t : Path, t.IsUnder ⟨[47, 119, 126, 49]⟩ ∧ markedRoot.read t = .ok [121] ∧
      l.resolver.key? t = some ['/', 'w', '1', '/', 'c'] := by
  obtain ⟨l, hnew⟩ : ∃ l, Loader.new markedRoot anyTilde = .ok l := ⟨_, rfl⟩
  refine ⟨l, hnew, ?_⟩
  cases hnew
  refine ⟨rfl, by decide, rfl, by decide, rfl, ?_⟩
  rintro ⟨⟨bytes⟩, hunder, -, hkey⟩
  have htext : Utf8.lossy bytes = ['/', 'w', '1', '/', 'c'] := Option.some.inj hkey
  have hbytes : Utf8.encode (Utf8.lossy bytes) = bytes := Utf8.encode_lossy (by rw [htext]; decide)
  rw [htext] at hbytes
  subst hbytes
  revert hunder
  decide

end Loader

end CertRotation
