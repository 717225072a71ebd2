import CertRotation.Path
import Mathlib.Order.Compare

/-!
# The order of paths

The comparison of components is a linear order, and so is the one of lists of components.  Paths
that compare as equal are those with the same components, so the order of paths is one up to the
text that a path was given as.

* `Path.instTransCmp` — the order of paths is transitive and oriented,
* `Path.compare_eq_eq` — its equality is `Path.same`.
-/

set_option autoImplicit false

namespace CertRotation

/-- An order on values orders what they are read from. -/
theorem transCmp_on {α β : Type} (cmp : β → β → Ordering) [Std.TransCmp cmp] (f : α → β) :
    Std.TransCmp fun a b => cmp (f a) (f b) where
  eq_swap := Std.OrientedCmp.eq_swap
  isLE_trans := Std.TransCmp.isLE_trans

namespace Component

instance instTransCmpBytes : Std.TransCmp fun x y : Bytes => compareOfLessAndEq x y :=
  Std.TransOrd.compareOfLessAndEq_of_antisymm_of_trans_of_total_of_not_le List.le_antisymm
    List.le_trans List.le_total List.not_le

/-- Components are ordered by their kinds, and in one kind by their bytes. -/
theorem compare_eq (a b : Component) :
    a.compare b = compareLex (fun a b : Component => Ord.compare a.rank b.rank)
      (fun a b : Component => compareOfLessAndEq (a.name?.getD []) (b.name?.getD [])) a b := by
  cases a <;> cases b <;> rfl

instance instTransCmp : Std.TransCmp Component.compare := by
  have := transCmp_on Ord.compare rank
  have := transCmp_on (fun x y : Bytes => compareOfLessAndEq x y)
    fun a : Component => a.name?.getD []
  have heq := funext fun a => funext (compare_eq a)
  rw [heq]
  infer_instance

instance instLawfulEqCmp : Std.LawfulEqCmp Component.compare where
  eq_of_compare {a b} h := by
    rw [compare_eq, compareLex_eq_eq, Nat.compare_eq_eq,
      compareOfLessAndEq_eq_eq List.le_refl List.not_le] at h
    obtain ⟨hrank, hname⟩ := h
    cases a <;> cases b <;> simp_all [rank, name?]

end Component

namespace Path

variable {p q r : Path}

theorem compareComponents_eq (a b : List Component) :
    compareComponents a b = List.compareLex Component.compare a b := by
  induction a generalizing b with
  | nil => cases b <;> rfl
  | cons c cs ih =>
    cases b with
    | nil => rfl
    | cons d ds => rw [compareComponents, List.compareLex_cons_cons, ih]

instance instTransCmp : Std.TransCmp compare := by
  have heq : compare = fun p q => List.compareLex Component.compare p.components q.components :=
    funext fun p => funext fun q => compareComponents_eq _ _
  rw [heq]
  exact transCmp_on _ components

theorem compare_eq_eq : p.compare q = .eq ↔ p.same q := by
  rw [compare, compareComponents_eq, Std.LawfulEqCmp.compare_eq_iff_eq, same, decide_eq_true_iff]

@[simp] theorem same_refl (p : Path) : p.same p := by
  rw [same, decide_eq_true_iff]

theorem same_iff : p.same q ↔ p.components = q.components := by
  rw [same, decide_eq_true_iff]

/-- A path is the same as either of two paths that are the same. -/
theorem same_congr (h : p.same q) : p.same r = q.same r := by
  rw [same, same, same_iff.1 h]

theorem any_same_congr (h : p.same q) (paths : List Path) : paths.any p.same = paths.any q.same :=
  congrArg paths.any (funext fun _ => same_congr h)

theorem not_same_of_lt (h : p.compare q = .lt) : ¬ p.same q := by
  intro hsame
  rw [compare_eq_eq.2 hsame] at h
  cases h

end Path

end CertRotation
