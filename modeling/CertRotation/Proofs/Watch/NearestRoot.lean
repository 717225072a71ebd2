import CertRotation.Proofs.Path.Ancestors
import CertRotation.Watch.Key
import CertRotation.Watch.Notifier

/-!
# The nearest root

Two parts of the library look for the root that a path belongs to.  A notifier goes upwards from the
path and takes the first ancestor that is a root; a resolver takes, of the roots that the path lies
under, the one with the most components.  The first compares texts that have been cut, the second
counts, and of several roots that count the same it takes the last.  Both come to the deepest root
that the path lies under, since the roots a path lies under are beginnings of one list.

* `Path.IsUnder` — a path lies at or below another one, component by component;
* `KeyResolver.deepest_of_nearestRoot?` — what a resolver finds;
* `KeyResolver.key?_congr_roots` — keys do not depend on the order of the roots;
* `Notifier.rootFor_nearest` — **the two searches agree**.
-/

set_option autoImplicit false

namespace CertRotation

namespace Path

variable {p q root : Path}

/-- The path lies at or below `root`: its components begin with those of `root`. -/
def IsUnder (p root : Path) : Prop := root.components <+: p.components

instance : Decidable (p.IsUnder root) := by
  unfold IsUnder
  infer_instance

theorem isSome_below? : (p.below? root).isSome ↔ p.IsUnder root := by
  rw [below?, IsUnder]
  split <;> simp [*]

theorem below?_of_isUnder (h : p.IsUnder root) :
    p.below? root = some (p.components.drop root.components.length) := if_pos h

/-- Of two paths that a path lies under, the one with more components lies under the other one. -/
theorem IsUnder.of_length_le (hq : p.IsUnder q) (hroot : p.IsUnder root)
    (h : root.components.length ≤ q.components.length) : q.IsUnder root :=
  List.prefix_of_prefix_length_le hroot hq h

/-- A path is absolute if it is made of the top of the tree first. -/
theorem isAbsolute_iff : p.isAbsolute ↔ p.components.head? = some .top := by
  obtain ⟨_ | ⟨b, bs⟩⟩ := p
  · decide
  by_cases hb : b = separator
  · simp [isAbsolute, components, lead, hb]
  · have hname : ∀ names : List Bytes, (names.filterMap Component.ofName?).head? ≠ some .top := by
      intro names htop
      obtain ⟨name, -, hname⟩ := List.mem_filterMap.1 (List.mem_of_mem_head? htop)
      rw [Component.ofName?] at hname
      split at hname
      · cases hname
      · split at hname <;> cases hname
    have habsolute : (Path.mk (b :: bs)).isAbsolute = false := by simp [isAbsolute, hb]
    simp only [habsolute, components, lead, hb, if_false]
    split
    · simp
    · simpa using hname _

theorem components_ne_nil_of_isAbsolute (h : p.isAbsolute) : p.components ≠ [] := by
  intro hnil
  rw [isAbsolute_iff, hnil] at h
  cases h

/-- What lies under an absolute path is absolute. -/
theorem IsUnder.isAbsolute (hunder : p.IsUnder root) (h : root.isAbsolute) : p.isAbsolute := by
  obtain ⟨rest, hrest⟩ := hunder
  rw [isAbsolute_iff] at h ⊢
  rw [← hrest, List.head?_append, h]
  rfl

end Path

namespace KeyResolver

variable {roots others : List Path} {p root : Path}

theorem nearestRoot?_concat (roots : List Path) (root p : Path) :
    nearestRoot? (roots ++ [root]) p =
      if p.IsUnder root then
        match nearestRoot? roots p with
        | none => some root
        | some other =>
          if root.components.length < other.components.length then some other else some root
      else nearestRoot? roots p := by
  rw [nearestRoot?, List.filter_append, List.foldl_append, ← nearestRoot?]
  by_cases hunder : p.IsUnder root
  · rw [if_pos hunder, List.filter_singleton, Path.isSome_below?.2 hunder]
    rfl
  · have hnone : (p.below? root).isSome = false := by
      rwa [← Bool.not_eq_true, Path.isSome_below?]
    rw [if_neg hunder, List.filter_singleton, hnone]
    rfl

/-- A resolver finds no root for a path that lies under none, and otherwise a longest one of those
that the path lies under. -/
theorem nearestRoot?_cases (roots : List Path) (p : Path) :
    nearestRoot? roots p = none ∧ (∀ root ∈ roots, ¬ p.IsUnder root) ∨
      ∃ nearest ∈ roots, nearestRoot? roots p = some nearest ∧ p.IsUnder nearest ∧
        ∀ root ∈ roots, p.IsUnder root → root.components.length ≤ nearest.components.length := by
  induction roots using List.reverseRecOn with
  | nil => exact .inl ⟨rfl, nofun⟩
  | append_singleton roots root ih =>
    rw [nearestRoot?_concat]
    simp only [List.mem_append, List.mem_singleton]
    by_cases hunder : p.IsUnder root
    · rw [if_pos hunder]
      right
      rcases ih with ⟨hnone, hnot⟩ | ⟨other, hother, hsome, hp, hlongest⟩
      · rw [hnone]
        refine ⟨root, .inr rfl, rfl, hunder, fun r hr hpr => ?_⟩
        rcases hr with hr | rfl
        · exact absurd hpr (hnot r hr)
        · exact Nat.le_refl _
      · rw [hsome]
        by_cases hlt : root.components.length < other.components.length
        · refine ⟨other, .inl hother, if_pos hlt, hp, fun r hr hpr => ?_⟩
          rcases hr with hr | rfl
          · exact hlongest r hr hpr
          · exact Nat.le_of_lt hlt
        · refine ⟨root, .inr rfl, if_neg hlt, hunder, fun r hr hpr => ?_⟩
          rcases hr with hr | rfl
          · exact (hlongest r hr hpr).trans (Nat.le_of_not_lt hlt)
          · exact Nat.le_refl _
    · rw [if_neg hunder]
      rcases ih with ⟨hnone, hnot⟩ | ⟨other, hother, hsome, hp, hlongest⟩
      · refine .inl ⟨hnone, fun r hr => ?_⟩
        rcases hr with hr | rfl
        · exact hnot r hr
        · exact hunder
      · refine .inr ⟨other, .inl hother, hsome, hp, fun r hr hpr => ?_⟩
        rcases hr with hr | rfl
        · exact hlongest r hr hpr
        · exact absurd hpr hunder

/-- **What a resolver finds** is the deepest of the roots that the path lies under. -/
theorem deepest_of_nearestRoot? (h : nearestRoot? roots p = some root) :
    root ∈ roots ∧ p.IsUnder root ∧ ∀ other ∈ roots, p.IsUnder other → root.IsUnder other := by
  rcases nearestRoot?_cases roots p with ⟨hnone, -⟩ | ⟨nearest, hmem, hsome, hp, hlongest⟩
  · rw [h] at hnone
    cases hnone
  · rw [h] at hsome
    cases hsome
    exact ⟨hmem, hp, fun other hother hpo => hp.of_length_le hpo (hlongest other hother hpo)⟩

theorem nearestRoot?_eq_none (h : ∀ root ∈ roots, ¬ p.IsUnder root) :
    nearestRoot? roots p = none := by
  rcases nearestRoot?_cases roots p with ⟨hnone, -⟩ | ⟨nearest, hmem, -, hp, -⟩
  · exact hnone
  · exact absurd hp (h nearest hmem)

theorem exists_nearestRoot? (hroot : root ∈ roots) (h : p.IsUnder root) :
    ∃ nearest, nearestRoot? roots p = some nearest := by
  rcases nearestRoot?_cases roots p with ⟨-, hnot⟩ | ⟨nearest, -, hsome, -⟩
  · exact absurd h (hnot root hroot)
  · exact ⟨nearest, hsome⟩

/-- The key that names below a root make: each of them with a separator before it, and no key where
there are none. -/
def keyOfNames? (names : List Bytes) : Option Key :=
  if names = [] then none else some ('/' :: ['/'].intercalate (names.map Utf8.lossy))

theorem keyBelowRoot?_eq (roots : List Path) (p : Path) :
    keyBelowRoot? roots p = (nearestRoot? roots p).bind fun root =>
      (p.below? root).bind fun rest => keyOfNames? (rest.filterMap Component.name?) := by
  rw [keyBelowRoot?]
  simp only [keyOfNames?, List.isEmpty_iff]
  rfl

/-- Below its nearest root a path has the key that the names there make. -/
theorem keyBelowRoot?_of_nearestRoot? (h : nearestRoot? roots p = some root) :
    keyBelowRoot? roots p =
      keyOfNames? ((p.components.drop root.components.length).filterMap Component.name?) := by
  rw [keyBelowRoot?_eq, h, Option.bind_some,
    Path.below?_of_isUnder (deepest_of_nearestRoot? h).2.1, Option.bind_some]

/-- The names below the nearest root do not depend on the order of the roots. -/
theorem keyBelowRoot?_congr (h : ∀ root, root ∈ roots ↔ root ∈ others) (p : Path) :
    keyBelowRoot? roots p = keyBelowRoot? others p := by
  cases hroot : nearestRoot? roots p with
  | none =>
    have hnot : ∀ root ∈ others, ¬ p.IsUnder root := by
      intro root hmem hunder
      obtain ⟨nearest, hsome⟩ := exists_nearestRoot? ((h root).2 hmem) hunder
      rw [hroot] at hsome
      cases hsome
    rw [keyBelowRoot?_eq, keyBelowRoot?_eq, hroot, nearestRoot?_eq_none hnot]
  | some root =>
    obtain ⟨hmem, hunder, hdeepest⟩ := deepest_of_nearestRoot? hroot
    obtain ⟨other, hother⟩ := exists_nearestRoot? ((h root).1 hmem) hunder
    obtain ⟨hmem', hunder', hdeepest'⟩ := deepest_of_nearestRoot? hother
    -- Each of the two lies under the other one, so they have the same components.
    have hlength : root.components.length = other.components.length :=
      Nat.le_antisymm (hdeepest' root ((h root).1 hmem) hunder).length_le
        (hdeepest other ((h other).2 hmem') hunder').length_le
    rw [keyBelowRoot?_of_nearestRoot? hroot, keyBelowRoot?_of_nearestRoot? hother, hlength]

/-- **Keys do not depend on the order of the roots**, nor on how often a root is named. -/
theorem key?_congr_roots (h : ∀ root, root ∈ roots ↔ root ∈ others) (strategy : KeyStrategy)
    (extension : Option (List Char)) (p : Path) :
    (KeyResolver.mk strategy extension roots).key? p =
      (KeyResolver.mk strategy extension others).key? p := by
  cases strategy with
  | pathRelativeToRoot => exact keyBelowRoot?_congr h p
  | nameNoExtension => rfl
  | nameWithExtension => rfl
  | fullPath => rfl

end KeyResolver

namespace Notifier

variable {L : Type} {n : Notifier L} {p : Path}

/-- What a notifier files a path under does not depend on the order of the roots. -/
theorem rootFor_congr_mem {m : Notifier L} (h : ∀ root, root ∈ m.roots ↔ root ∈ n.roots)
    (p : Path) : m.rootFor p = n.rootFor p := by
  have hany : (fun q : Path => m.roots.any q.same) = fun q => n.roots.any q.same := by
    funext q
    rw [Bool.eq_iff_iff, List.any_eq_true, List.any_eq_true]
    simp only [h]
  rw [rootFor, rootFor, hany]

theorem rootFor_of_not_isUnder (h : ∀ root ∈ n.roots, ¬ p.IsUnder root) :
    n.rootFor p = p.parent?.getD p := by
  rw [rootFor, Path.find?_ancestors_eq_none h]

/-- What a notifier files a path under that lies under a root. -/
theorem deepest_rootFor (habsolute : ∀ root ∈ n.roots, root.isAbsolute) {root : Path}
    (hroot : root ∈ n.roots) (h : p.IsUnder root) :
    (∃ deepest ∈ n.roots, (n.rootFor p).same deepest) ∧ p.IsUnder (n.rootFor p) ∧
      ∀ other ∈ n.roots, p.IsUnder other → (n.rootFor p).IsUnder other := by
  have hne : ∀ root ∈ n.roots, root.components ≠ [] := fun root hmem =>
    Path.components_ne_nil_of_isAbsolute (habsolute root hmem)
  obtain ⟨q, hq⟩ : ∃ q, p.ancestors.find? (fun q => n.roots.any q.same) = some q := by
    obtain ⟨r, hr, heq⟩ := Path.exists_mem_ancestors h (hne root hroot)
    refine Option.isSome_iff_exists.1 (List.find?_isSome.2 ⟨r, hr, ?_⟩)
    exact List.any_eq_true.2 ⟨root, hroot, Path.same_iff.2 heq⟩
  have hfound : n.rootFor p = q := by
    rw [rootFor, hq]
  obtain ⟨hsame, hunder, hdeepest⟩ := Path.deepest_of_find?_ancestors hq
  rw [hfound]
  exact ⟨hsame, hunder, fun other hmem => hdeepest other hmem (hne other hmem)⟩

/-- A path that lies under no root is not filed under one. -/
theorem not_same_rootFor (h : ∀ root ∈ n.roots, ¬ p.IsUnder root) :
    ∀ root ∈ n.roots, ¬ (n.rootFor p).same root := by
  intro root hroot hsame
  refine h root hroot ?_
  rw [Path.IsUnder, ← Path.same_iff.1 hsame, rootFor_of_not_isUnder h]
  cases hparent : p.parent? with
  | none => exact List.prefix_rfl
  | some q =>
    obtain ⟨component, hcomponents⟩ := Path.components_of_parent? hparent
    rw [Option.getD_some, hcomponents]
    exact List.prefix_append _ _

/-- **The two searches for the nearest root agree.**  A notifier and a resolver with the same roots,
in whatever order and however often each is named: the notifier files a path under a root if and
only if the path lies under one, and then it is the deepest of those, and the very root below which
the resolver reads the key off the path.  A path that lies under no root is filed under its parent,
or under itself if it has none, and it has no key. -/
theorem rootFor_nearest {r : KeyResolver} (habsolute : ∀ root ∈ n.roots, root.isAbsolute)
    (hstrategy : r.strategy = .pathRelativeToRoot)
    (hroots : ∀ root, root ∈ r.roots ↔ root ∈ n.roots) (p : Path) :
    ((∃ root ∈ n.roots, (n.rootFor p).same root) ↔ ∃ root ∈ n.roots, p.IsUnder root) ∧
      ((∃ root ∈ n.roots, p.IsUnder root) →
        ∃ nearest ∈ n.roots, KeyResolver.nearestRoot? r.roots p = some nearest ∧
          (n.rootFor p).same nearest ∧
          (∀ root ∈ n.roots, p.IsUnder root → nearest.IsUnder root) ∧
          ∃ rest, p.components = nearest.components ++ rest ∧
            r.key? p = KeyResolver.keyOfNames? (rest.filterMap Component.name?)) ∧
      ((∀ root ∈ n.roots, ¬ p.IsUnder root) →
        n.rootFor p = p.parent?.getD p ∧ r.key? p = none) ∧
      (∀ m : Notifier L, (∀ root, root ∈ m.roots ↔ root ∈ n.roots) →
        m.rootFor p = n.rootFor p) ∧
      ∀ roots : List Path, (∀ root, root ∈ roots ↔ root ∈ r.roots) →
        ({ r with roots := roots } : KeyResolver).key? p = r.key? p := by
  have hkey : r.key? p = KeyResolver.keyBelowRoot? r.roots p := by
    rw [KeyResolver.key?, hstrategy]
  refine ⟨⟨fun hfiled => ?_, fun ⟨root, hroot, hunder⟩ => ?_⟩, fun ⟨root, hroot, hunder⟩ => ?_,
    fun hnone => ⟨rootFor_of_not_isUnder hnone, ?_⟩, fun m h => rootFor_congr_mem h p,
    fun roots h => KeyResolver.key?_congr_roots h r.strategy r.extension p⟩
  · by_contra hnone
    simp only [not_exists, not_and] at hnone
    obtain ⟨root, hroot, hsame⟩ := hfiled
    exact not_same_rootFor hnone root hroot hsame
  · exact (deepest_rootFor habsolute hroot hunder).1
  · obtain ⟨nearest, hnearest⟩ := KeyResolver.exists_nearestRoot? ((hroots root).2 hroot) hunder
    obtain ⟨hmem, hp, hdeepest⟩ := KeyResolver.deepest_of_nearestRoot? hnearest
    obtain ⟨⟨filed, hfiled, hsame⟩, hup, hdeepest'⟩ := deepest_rootFor habsolute hroot hunder
    have hnearestMem : nearest ∈ n.roots := (hroots nearest).1 hmem
    refine ⟨nearest, hnearestMem, hnearest, Path.same_iff.2 ?_,
      fun other hother => hdeepest other ((hroots other).2 hother),
      p.components.drop nearest.components.length, ?_, ?_⟩
    · have hfiledUnder : p.IsUnder filed := by
        rwa [Path.IsUnder, ← Path.same_iff.1 hsame]
      have hle := hdeepest filed ((hroots filed).2 hfiled) hfiledUnder
      rw [Path.IsUnder, ← Path.same_iff.1 hsame] at hle
      exact hle.eq_of_length_le (hdeepest' nearest hnearestMem hp).length_le
    · exact (List.prefix_iff_eq_append.1 hp).symm
    · rw [hkey, KeyResolver.keyBelowRoot?_of_nearestRoot? hnearest]
  · rw [hkey, KeyResolver.keyBelowRoot?_eq, KeyResolver.nearestRoot?_eq_none, Option.bind_none]
    exact fun root hroot => hnone root ((hroots root).1 hroot)

/-- A directory with another one in it. -/
def innerDirectory : Disk := ⟨[([[119]], .dir), ([[119], [100]], .dir)], []⟩

/-- A notifier for both of them, the inner one named twice. -/
def overlapping : NotifierConfig :=
  ⟨[⟨[47, 119, 47, 100]⟩, ⟨[47, 119]⟩, ⟨[47, 119, 47, 100]⟩], ⟨1, 0⟩, false, ⟨none, none, none⟩⟩

/-- A path in the inner directory that goes upwards there, with separators and a dot to spare. -/
def windingPath : Path := ⟨[47, 119, 47, 47, 100, 47, 46, 46, 47, 102, 47, 46]⟩

/-- The path belongs to the inner directory for both, which name the roots in different orders. -/
theorem rootFor_nearest_winding : ∃ n : Notifier Unit,
    Notifier.new innerDirectory overlapping () = .ok n ∧ (∀ root ∈ n.roots, root.isAbsolute) ∧
      (∀ root, root ∈ [⟨[47, 119]⟩, ⟨[47, 119, 47, 100]⟩] ↔ root ∈ n.roots) ∧
      (n.rootFor windingPath).same ⟨[47, 119, 47, 100]⟩ ∧
      (KeyResolver.make .pathRelativeToRoot none [⟨[47, 119]⟩, ⟨[47, 119, 47, 100]⟩]).key?
        windingPath = some ['/', 'f'] := by
  obtain ⟨n, hnew⟩ : ∃ n : Notifier Unit, Notifier.new innerDirectory overlapping () = .ok n :=
    ⟨_, rfl⟩
  have hroots : n.roots = [⟨[47, 119, 47, 100]⟩, ⟨[47, 119]⟩, ⟨[47, 119, 47, 100]⟩] := by
    cases hnew
    rfl
  have habsolute : ∀ root ∈ n.roots, root.isAbsolute := by
    rw [hroots]
    decide
  have hsame : ∀ root, root ∈ [(⟨[47, 119]⟩ : Path), ⟨[47, 119, 47, 100]⟩] ↔ root ∈ n.roots := by
    intro root
    rw [hroots]
    simp only [List.mem_cons, List.not_mem_nil, or_false]
    tauto
  have hunder : ∃ root ∈ n.roots, windingPath.IsUnder root :=
    ⟨⟨[47, 119]⟩, by rw [hroots]; decide, by decide⟩
  obtain ⟨-, hnearest, -⟩ := rootFor_nearest (n := n)
    (r := .make .pathRelativeToRoot none [⟨[47, 119]⟩, ⟨[47, 119, 47, 100]⟩])
    habsolute rfl hsame windingPath
  obtain ⟨nearest, -, hfound, hfiled, -, rest, hrest, hkey⟩ := hnearest hunder
  have hinner : nearest = ⟨[47, 119, 47, 100]⟩ := Option.some.inj (hfound.symm.trans (by decide))
  subst hinner
  have hnames : rest = [.above, .name [102]] :=
    List.append_cancel_left (hrest.symm.trans (by decide))
  refine ⟨n, hnew, habsolute, hsame, hfiled, ?_⟩
  rw [hkey, hnames]
  decide

end Notifier

end CertRotation
