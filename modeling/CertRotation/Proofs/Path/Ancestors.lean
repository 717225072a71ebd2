import CertRotation.Proofs.Disk.FileTree
import Mathlib.Data.List.DropRight

/-!
# Going upwards

The parent of a path is cut out of its text: what names nothing is trimmed off the end, then the
last name, then what names nothing again.  Read by components that is plainly the path without its
last component.  So the ancestors of a path are the beginnings of its components, the longest first,
and the first ancestor that has some property of components is the deepest one.

* `Path.parent?_cases`, `Path.components_of_parent?` — one step upwards;
* `Path.isPrefix_of_mem_ancestors`, `Path.exists_mem_ancestors` — the ancestors of a path;
* `Path.deepest_of_find?_ancestors` — the first ancestor that is one of some paths.
-/

set_option autoImplicit false

namespace CertRotation

theorem Component.ofName?_eq_none_iff {name : Bytes} :
    Component.ofName? name = none ↔ Path.isBlankName name := by
  rw [ofName?, Path.isBlankName]
  by_cases hblank : name = [] ∨ name = dot
  · simp [hblank]
  · rw [if_neg hblank]
    split <;> simpa using hblank

namespace Path

variable {p q : Path}

/-! ## One step upwards -/

/-- Trimming takes off names that name nothing. -/
theorem filterMap_trimNames (names : List Bytes) :
    (trimNames names).filterMap Component.ofName? = names.filterMap Component.ofName? := by
  show (names.rdropWhile isBlankName).filterMap _ = _
  induction names using List.reverseRecOn with
  | nil => rfl
  | append_singleton names name ih =>
    rw [List.rdropWhile_concat, List.filterMap_append]
    split
    · rename_i hblank
      rw [ih, List.filterMap_cons, Component.ofName?_eq_none_iff.2 hblank, List.filterMap_nil,
        List.append_nil]
    · rw [List.filterMap_append]

/-- What is left after trimming ends in a name that names something. -/
theorem exists_of_trimNames_ne_nil {names : List Bytes} (h : trimNames names ≠ []) :
    ∃ front name component, trimNames names = front ++ [name] ∧
      Component.ofName? name = some component := by
  obtain ⟨front, name, heq⟩ := (List.eq_nil_or_concat' _).resolve_left h
  have hlast := List.rdropWhile_last_not isBlankName names h
  have hname : ¬ isBlankName name := by
    have hget : (trimNames names).getLast h = name := by simp [heq]
    rwa [← hget]
  rw [← Component.ofName?_eq_none_iff] at hname
  obtain ⟨component, hcomponent⟩ := Option.ne_none_iff_exists'.1 hname
  exact ⟨front, name, component, heq, hcomponent⟩

theorem trimNames_isPrefix (names : List Bytes) : trimNames names <+: names :=
  List.rdropWhile_prefix isBlankName names

/-- Joined names read as the names they were. -/
theorem filterMap_splitNames_joinNames {names : List Bytes} (h : ∀ n ∈ names, separator ∉ n) :
    (splitNames (joinNames names)).filterMap Component.ofName? =
      names.filterMap Component.ofName? := by
  rcases eq_or_ne names [] with rfl | hne
  · rfl
  · rw [splitNames_joinNames hne h]

/-- A path begins as before when names are taken off its end. -/
theorem lead_joinNames {first : Option Component} {head rest : Bytes} {names : List Bytes}
    (hlead : p.lead = (first, head, rest)) (hnames : names <+: splitNames rest) :
    (Path.mk (head ++ joinNames names)).lead = (first, head, joinNames names) := by
  have hsep : ∀ n ∈ names, separator ∉ n := fun n hn =>
    (Disk.separator_notMem_of_mem_splitNames (hnames.subset hn)).1
  rw [lead] at hlead
  split at hlead
  · cases hlead
    rcases List.prefix_cons_iff.1 hnames with rfl | ⟨names, rfl, hnil⟩
    · rfl
    · rw [List.prefix_nil.1 hnil]
      rfl
  rename_i b bs hbytes
  split at hlead
  · rename_i hb
    cases hlead
    simp [lead, hb]
  rename_i hb
  obtain ⟨name, more, hsplit⟩ := List.exists_cons_of_ne_nil (splitNames_ne_nil bs)
  have hcons : splitNames (b :: bs) = (b :: name) :: more := by
    rw [splitNames, if_neg hb, hsplit]
  rw [hcons] at hlead
  split at hlead
  · -- The path begins with a dot, so a separator comes next or the path ends.
    rename_i hdot
    cases hlead
    obtain ⟨rfl, rfl⟩ := List.cons_eq_cons.1 (Option.some.inj hdot)
    rw [hsplit] at hnames
    rcases List.prefix_cons_iff.1 hnames with rfl | ⟨names, rfl, -⟩
    · rfl
    · rcases eq_or_ne names [] with rfl | hne
      · rfl
      · rw [joinNames_cons hne, List.nil_append]
        rfl
  · rename_i hdot
    cases hlead
    rw [hcons] at hnames
    rcases List.prefix_cons_iff.1 hnames with rfl | ⟨names, rfl, -⟩
    · rfl
    · have hjoin : ∃ tail, joinNames ((b :: name) :: names) = b :: tail := by
        rcases eq_or_ne names [] with rfl | hne
        · exact ⟨name, joinNames_singleton _⟩
        · exact ⟨_, joinNames_cons hne⟩
      have hhead := congrArg List.head? (splitNames_joinNames (by simp) hsep)
      obtain ⟨tail, htail⟩ := hjoin
      rw [htail] at hhead ⊢
      rw [List.nil_append, lead]
      simp only [hb, if_false, hhead, List.head?_cons]
      exact if_neg hdot

/-- A path begins with nothing, with the top of the tree or with a dot. -/
theorem first_of_lead {first : Option Component} {head rest : Bytes}
    (hlead : p.lead = (first, head, rest)) :
    first = none ∨ first = some .top ∨ first = some .here := by
  rw [lead] at hlead
  split at hlead
  · cases hlead
    exact .inl rfl
  split at hlead
  · cases hlead
    exact .inr (.inl rfl)
  split at hlead
  · cases hlead
    exact .inr (.inr rfl)
  · cases hlead
    exact .inl rfl

/-- Whether there is a step upwards, and where it leads. -/
theorem parent?_cases (p : Path) :
    p.parent? = none ∧ (p.components = [] ∨ p.components = [.top]) ∨
      ∃ q component, p.parent? = some q ∧ p.components = q.components ++ [component] := by
  obtain ⟨first, head, rest, hlead⟩ : ∃ first head rest, p.lead = (first, head, rest) :=
    ⟨_, _, _, rfl⟩
  have hcomponents : p.components =
      first.toList ++ (trimNames (splitNames rest)).filterMap Component.ofName? := by
    rw [components, hlead, filterMap_trimNames]
  rw [parent?, hlead]
  dsimp only
  rcases eq_or_ne (trimNames (splitNames rest)) [] with hnil | hne
  · rw [hcomponents, hnil]
    rcases first_of_lead hlead with rfl | rfl | rfl
    · exact .inl ⟨rfl, .inl rfl⟩
    · exact .inl ⟨rfl, .inr rfl⟩
    · exact .inr ⟨⟨[]⟩, .here, rfl, rfl⟩
  · obtain ⟨front, name, component, hfront, hname⟩ := exists_of_trimNames_ne_nil hne
    have hbegins : trimNames front <+: splitNames rest :=
      (trimNames_isPrefix front).trans ((List.prefix_append front [name]).trans
        (hfront ▸ trimNames_isPrefix _))
    have hsep : ∀ n ∈ trimNames front, separator ∉ n := fun n hn =>
      (Disk.separator_notMem_of_mem_splitNames (hbegins.subset hn)).1
    refine .inr ⟨⟨head ++ joinNames (trimNames front)⟩, component, ?_, ?_⟩
    · split
      · rename_i hnil
        exact absurd hnil hne
      · rw [hfront, List.dropLast_concat]
    · rw [hcomponents, hfront, List.filterMap_append, components, lead_joinNames hlead hbegins]
      dsimp only
      rw [filterMap_splitNames_joinNames hsep, filterMap_trimNames, List.filterMap_cons, hname,
        List.filterMap_nil, List.append_assoc]

/-- **The parent of a path** is the path without its last component. -/
theorem components_of_parent? (h : p.parent? = some q) :
    ∃ component, p.components = q.components ++ [component] := by
  rcases p.parent?_cases with ⟨hnone, -⟩ | ⟨q', component, hsome, hcomponents⟩
  · rw [hnone] at h
    cases h
  · rw [hsome] at h
    cases h
    exact ⟨component, hcomponents⟩

theorem length_le_one_of_parent? (h : p.parent? = none) : p.components.length ≤ 1 := by
  rcases p.parent?_cases with ⟨-, hcomponents | hcomponents⟩ | ⟨q, component, hsome, -⟩
  · simp [hcomponents]
  · simp [hcomponents]
  · rw [h] at hsome
    cases hsome

/-! ## All the way up -/

/-- Going up one step at a time, one meets the path and then the ancestors of its parent. -/
theorem ancestorsWithin_cases (fuel : Nat) (p : Path) :
    ancestorsWithin fuel p = [p] ∧ (fuel = 0 ∨ p.components.length ≤ 1) ∨
      ∃ less q component, fuel = less + 1 ∧ p.components = q.components ++ [component] ∧
        ancestorsWithin fuel p = p :: ancestorsWithin less q := by
  cases fuel with
  | zero => exact .inl ⟨rfl, .inl rfl⟩
  | succ fuel =>
    rw [ancestorsWithin]
    cases hparent : p.parent? with
    | none => exact .inl ⟨rfl, .inr (length_le_one_of_parent? hparent)⟩
    | some q =>
      obtain ⟨component, hcomponents⟩ := components_of_parent? hparent
      exact .inr ⟨fuel, q, component, rfl, hcomponents, rfl⟩

theorem isPrefix_of_mem_ancestorsWithin {fuel : Nat} (h : q ∈ ancestorsWithin fuel p) :
    q.components <+: p.components := by
  induction fuel generalizing p with
  | zero => rw [List.mem_singleton.1 h]
  | succ fuel ih =>
    rcases ancestorsWithin_cases (fuel + 1) p with ⟨hone, -⟩ | ⟨less, up, c, hless, hup, hmore⟩
    · rw [hone] at h
      rw [List.mem_singleton.1 h]
    · cases hless
      rw [hmore] at h
      rcases List.mem_cons.1 h with rfl | h
      · exact List.prefix_rfl
      · rw [hup]
        exact (ih h).trans (List.prefix_append _ _)

/-- **The ancestors of a path** are beginnings of its components. -/
theorem isPrefix_of_mem_ancestors (h : q ∈ p.ancestors) : q.components <+: p.components :=
  isPrefix_of_mem_ancestorsWithin h

theorem exists_mem_ancestorsWithin {fuel : Nat} {beginning : List Component}
    (h : beginning <+: p.components) (hne : beginning ≠ [])
    (hfuel : p.components.length ≤ fuel + beginning.length) :
    ∃ q ∈ ancestorsWithin fuel p, q.components = beginning := by
  have hpos : 0 < beginning.length := List.length_pos_iff.2 hne
  induction fuel generalizing p with
  | zero => exact ⟨p, List.mem_singleton_self p, (h.eq_of_length_le (by omega)).symm⟩
  | succ fuel ih =>
    rcases ancestorsWithin_cases (fuel + 1) p with ⟨hone, hlen⟩ | ⟨less, up, c, hless, hup, hmore⟩
    · rw [hone]
      exact ⟨p, List.mem_singleton_self p, (h.eq_of_length_le (by omega)).symm⟩
    · cases hless
      rw [hmore]
      rw [hup] at h hfuel
      rcases List.prefix_concat_iff.1 h with rfl | h
      · exact ⟨p, List.mem_cons_self, hup⟩
      · rw [List.length_append, List.length_singleton] at hfuel
        obtain ⟨q, hq, heq⟩ := ih h (by omega)
        exact ⟨q, List.mem_cons_of_mem _ hq, heq⟩

/-- Every beginning of a path with something in it is an ancestor. -/
theorem exists_mem_ancestors {beginning : List Component} (h : beginning <+: p.components)
    (hne : beginning ≠ []) : ∃ q ∈ p.ancestors, q.components = beginning :=
  exists_mem_ancestorsWithin h hne (Nat.le_add_right _ _)

/-- The ancestors become shorter and shorter. -/
theorem pairwise_ancestorsWithin (fuel : Nat) (p : Path) :
    (ancestorsWithin fuel p).Pairwise fun q r => r.components.length < q.components.length := by
  induction fuel generalizing p with
  | zero => exact List.pairwise_singleton _ _
  | succ fuel ih =>
    rcases ancestorsWithin_cases (fuel + 1) p with ⟨hone, -⟩ | ⟨less, up, c, hless, hup, hmore⟩
    · rw [hone]
      exact List.pairwise_singleton _ _
    · cases hless
      rw [hmore]
      refine List.pairwise_cons.2 ⟨fun q hq => ?_, ih up⟩
      have hle := (isPrefix_of_mem_ancestorsWithin hq).length_le
      rw [hup, List.length_append, List.length_singleton]
      omega

/-- **The first ancestor that is one of some paths** is as deep as any of them that the path lies
at or below. -/
theorem deepest_of_find?_ancestors {roots : List Path}
    (h : p.ancestors.find? (fun q => roots.any q.same) = some q) :
    (∃ root ∈ roots, q.same root) ∧ q.components <+: p.components ∧
      ∀ root ∈ roots, root.components ≠ [] → root.components <+: p.components →
        root.components <+: q.components := by
  obtain ⟨hany, before, after, hancestors, hbefore⟩ := List.find?_eq_some_iff_append.1 h
  have hq : q.components <+: p.components :=
    isPrefix_of_mem_ancestors (by rw [hancestors]; simp)
  refine ⟨List.any_eq_true.1 hany, hq, fun root hroot hne hbelow => ?_⟩
  obtain ⟨r, hr, heq⟩ := exists_mem_ancestors hbelow hne
  have hsame : roots.any r.same := List.any_eq_true.2 ⟨root, hroot, same_iff.2 heq⟩
  have hordered := pairwise_ancestorsWithin p.components.length p
  change p.ancestors.Pairwise _ at hordered
  rw [hancestors] at hr hordered
  rw [← heq]
  rcases List.mem_append.1 hr with hr | hr
  · have hnot := hbefore r hr
    rw [hsame] at hnot
    cases hnot
  rcases List.mem_cons.1 hr with rfl | hr
  · exact List.prefix_rfl
  · have hlt := (List.pairwise_cons.1 (List.pairwise_append.1 hordered).2.1).1 r hr
    exact List.prefix_of_prefix_length_le (heq ▸ hbelow) hq (Nat.le_of_lt hlt)

/-- No ancestor is one of some paths if the path lies at or below none of them. -/
theorem find?_ancestors_eq_none {roots : List Path}
    (h : ∀ root ∈ roots, ¬ root.components <+: p.components) :
    p.ancestors.find? (fun q => roots.any q.same) = none := by
  refine List.find?_eq_none.2 fun q hq hany => ?_
  obtain ⟨root, hroot, hsame⟩ := List.any_eq_true.1 hany
  exact h root hroot (same_iff.1 hsame ▸ isPrefix_of_mem_ancestors hq)

end Path

end CertRotation
