import CertRotation.Proofs.Path.Order
import Mathlib.Data.List.Induction

/-!
# Sorted sets of paths

A set of paths is kept as a list in ascending order.  A path that is the same as one of the list is
not added again, even if its text is another one, so what a set answers for is the paths up to
`Path.same`.

* `Path.IsAscending`, `Path.isAscending_sorted` — each path once, in order;
* `Path.mem_of_mem_sorted`, `Path.any_same_sorted` — a set made of a list has the paths of the list;
* `Path.mem_sorted_append` — a list without repetitions gets into a set with the texts it has, if it
  gets in first.
-/

set_option autoImplicit false

namespace CertRotation.Path

variable {p q : Path} {ps qs : List Path}

/-- The paths of the list are in ascending order, each of them once. -/
def IsAscending (ps : List Path) : Prop := ps.Pairwise fun p q => p.compare q = .lt

/-- No path of the list is the same as another one. -/
def IsDistinct (ps : List Path) : Prop := ps.Pairwise fun p q => ¬ p.same q

instance (ps : List Path) : Decidable (IsDistinct ps) := by
  unfold IsDistinct
  infer_instance

/-! ## Adding a path -/

theorem mem_insertSorted (h : q ∈ qs) : q ∈ p.insertSorted qs := by
  induction qs with
  | nil => cases h
  | cons first rest ih =>
    rw [insertSorted]
    split
    · exact List.mem_cons_of_mem _ h
    · exact h
    · rcases List.mem_cons.1 h with rfl | h
      · exact List.mem_cons_self
      · exact List.mem_cons_of_mem _ (ih h)

theorem eq_or_mem_of_mem_insertSorted (h : q ∈ p.insertSorted qs) : q = p ∨ q ∈ qs := by
  induction qs with
  | nil => exact .inl (List.mem_singleton.1 h)
  | cons first rest ih =>
    rw [insertSorted] at h
    split at h
    · exact List.mem_cons.1 h
    · exact .inr h
    · rcases List.mem_cons.1 h with rfl | h
      · exact .inr List.mem_cons_self
      · exact (ih h).imp_right (List.mem_cons_of_mem _)

theorem any_same_insertSorted (p : Path) (qs : List Path) : (p.insertSorted qs).any p.same := by
  induction qs with
  | nil => simp [insertSorted]
  | cons first rest ih =>
    rw [insertSorted]
    split
    · simp
    · rename_i heq
      simp [compare_eq_eq.1 heq]
    · rw [List.any_cons, ih, Bool.or_true]

/-- A set answers for what has been added and for what it answered for before. -/
theorem any_same_insertSorted_eq (p q : Path) (qs : List Path) :
    (q.insertSorted qs).any p.same = (p.same q || qs.any p.same) := by
  rw [Bool.eq_iff_iff, Bool.or_eq_true]
  constructor
  · intro h
    obtain ⟨r, hr, hsame⟩ := List.any_eq_true.1 h
    rcases eq_or_mem_of_mem_insertSorted hr with rfl | hr
    · exact .inl hsame
    · exact .inr (List.any_eq_true.2 ⟨r, hr, hsame⟩)
  · rintro (h | h)
    · have hq := any_same_insertSorted q qs
      obtain ⟨r, hr, hsame⟩ := List.any_eq_true.1 hq
      exact List.any_eq_true.2 ⟨r, hr, by rwa [same_congr h]⟩
    · obtain ⟨r, hr, hsame⟩ := List.any_eq_true.1 h
      exact List.any_eq_true.2 ⟨r, mem_insertSorted hr, hsame⟩

/-- A path that is the same as none of the set gets into it with its text. -/
theorem mem_insertSorted_self (h : ∀ q ∈ qs, ¬ p.same q) : p ∈ p.insertSorted qs := by
  obtain ⟨q, hq, hsame⟩ := List.any_eq_true.1 (any_same_insertSorted p qs)
  rcases eq_or_mem_of_mem_insertSorted hq with rfl | hq'
  · exact hq
  · exact absurd hsame (h q hq')

theorem IsAscending.insertSorted (h : IsAscending qs) : IsAscending (p.insertSorted qs) := by
  induction qs with
  | nil => exact List.pairwise_singleton _ _
  | cons first rest ih =>
    obtain ⟨hfirst, hrest⟩ := List.pairwise_cons.1 h
    rw [Path.insertSorted]
    split
    · rename_i hlt
      refine List.pairwise_cons.2 ⟨List.forall_mem_cons.2 ⟨hlt, fun q hq => ?_⟩, h⟩
      exact Std.TransCmp.lt_trans hlt (hfirst q hq)
    · exact h
    · rename_i hgt
      refine List.pairwise_cons.2 ⟨fun q hq => ?_, ih hrest⟩
      rcases eq_or_mem_of_mem_insertSorted hq with rfl | hq
      · exact Std.OrientedCmp.gt_iff_lt.1 hgt
      · exact hfirst q hq

theorem IsAscending.isDistinct (h : IsAscending ps) : IsDistinct ps :=
  List.Pairwise.imp not_same_of_lt h

/-- Among different paths at most one is the same as another path. -/
theorem IsDistinct.countP_same (h : IsDistinct ps) (p : Path) :
    ps.countP p.same = if ps.any p.same then 1 else 0 := by
  induction ps with
  | nil => rfl
  | cons first rest ih =>
    obtain ⟨hfirst, hrest⟩ := List.pairwise_cons.1 h
    rw [List.countP_cons, ih hrest, List.any_cons]
    cases hsame : p.same first with
    | false => simp
    | true =>
      have hnone : rest.any p.same = false := by
        rw [List.any_eq_false]
        intro q hq
        rw [same_congr hsame]
        exact hfirst q hq
      simp [hnone]

/-! ## The set of a list -/

theorem sorted_concat (ps : List Path) (p : Path) :
    sorted (ps ++ [p]) = p.insertSorted (sorted ps) := by
  rw [sorted, List.foldl_append]
  rfl

/-- **A set lists its paths in order**, each of them once. -/
theorem isAscending_sorted (ps : List Path) : IsAscending (sorted ps) := by
  induction ps using List.reverseRecOn with
  | nil => exact List.Pairwise.nil
  | append_singleton ps p ih =>
    rw [sorted_concat]
    exact ih.insertSorted

theorem mem_of_mem_sorted (h : p ∈ sorted ps) : p ∈ ps := by
  induction ps using List.reverseRecOn with
  | nil => cases h
  | append_singleton ps q ih =>
    rw [sorted_concat] at h
    rcases eq_or_mem_of_mem_insertSorted h with rfl | h
    · simp
    · exact List.mem_append_left _ (ih h)

/-- What is in a set stays in it when more is added. -/
theorem mem_sorted_append_of_mem (h : p ∈ sorted ps) (qs : List Path) : p ∈ sorted (ps ++ qs) := by
  induction qs using List.reverseRecOn with
  | nil => rwa [List.append_nil]
  | append_singleton qs q ih =>
    rw [← List.append_assoc, sorted_concat]
    exact mem_insertSorted ih

theorem any_same_sorted (h : p ∈ ps) : (sorted ps).any p.same := by
  obtain ⟨front, back, rfl⟩ := List.append_of_mem h
  obtain ⟨q, hq, hsame⟩ := List.any_eq_true.1 (any_same_insertSorted p (sorted front))
  rw [← sorted_concat] at hq
  have hmem := mem_sorted_append_of_mem hq back
  rw [List.append_assoc, List.singleton_append] at hmem
  exact List.any_eq_true.2 ⟨q, hmem, hsame⟩

/-- **What gets in first keeps its text**: a list without repetitions is part of every set made of
it and of more. -/
theorem mem_sorted_append (hdistinct : IsDistinct ps) (h : p ∈ ps) (qs : List Path) :
    p ∈ sorted (ps ++ qs) := by
  refine mem_sorted_append_of_mem ?_ qs
  obtain ⟨front, back, rfl⟩ := List.append_of_mem h
  have hfront : ∀ q ∈ sorted front, ¬ p.same q := by
    intro q hq hsame
    refine (List.pairwise_append.1 hdistinct).2.2 q (mem_of_mem_sorted hq) p (by simp) ?_
    exact same_iff.2 (same_iff.1 hsame).symm
  have hmem := mem_sorted_append_of_mem (sorted_concat front p ▸ mem_insertSorted_self hfront) back
  rwa [List.append_assoc, List.singleton_append] at hmem

/-- A list without repetitions and its set have the same paths. -/
theorem mem_sorted_iff (hdistinct : IsDistinct ps) : p ∈ sorted ps ↔ p ∈ ps := by
  refine ⟨mem_of_mem_sorted, fun h => ?_⟩
  have hmem := mem_sorted_append hdistinct h []
  rwa [List.append_nil] at hmem

end CertRotation.Path
