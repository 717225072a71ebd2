import CertRotation.Proofs.Disk.Lookup

/-!
# The last name of a path

What stands after the last separator of a path is its last name, if it names anything.  A path with
another last name has the same components before it.  Written out and read back, names of characters
behave like names of bytes, since only the separator is spelled with its byte.

* `Path.components_append_separator` — the components of a path, read in two parts;
* `Utf8.separator_notMem_encode`, `Disk.leadsToDir_encode_iff` — names of characters;
* `exists_last_split` — a text is divided at its last separator.
-/

set_option autoImplicit false

namespace CertRotation

namespace Path

/-- What comes after a separator adds its components to those of what comes before. -/
theorem components_append_separator (front rest : Bytes) :
    (Path.mk (front ++ separator :: rest)).components =
      (Path.mk (front ++ [separator])).components ++
        (splitNames rest).filterMap Component.ofName? := by
  cases front with
  | nil => simp [components, lead, splitNames, Component.ofName?]
  | cons b bs =>
    have hsplit := splitNames_append_separator (b :: bs)
    have htail := splitNames_append_separator bs
    have hnil : (splitNames []).filterMap Component.ofName? = [] := rfl
    by_cases hb : b = separator
    · simp [components, lead, hb, htail, hnil]
    · -- Whether a dot comes first is decided before the separator.
      have hhead : ∀ more, (splitNames (b :: bs ++ separator :: more)).head? =
          (splitNames (b :: bs)).head? := by
        intro more
        rw [hsplit, List.head?_append_of_ne_nil _ (splitNames_ne_nil _)]
      simp only [List.cons_append] at hhead hsplit ⊢
      simp only [components, lead, hb, if_false, hhead]
      split <;> simp [hsplit, htail, hnil]

/-- A path with a proper name after its last separator has that name and what comes before it. -/
theorem components_of_name {front name : Bytes} (hsep : separator ∉ name)
    (hname : ¬ Disk.LeadsToDir name) : (Path.mk (front ++ separator :: name)).components =
      (Path.mk (front ++ [separator])).components ++ [.name name] := by
  rw [Disk.LeadsToDir, ← or_assoc, not_or] at hname
  have hof : Component.ofName? name = some (.name name) := by
    rw [Component.ofName?, if_neg hname.1, if_neg hname.2]
  rw [components_append_separator, splitNames_of_notMem hsep, List.filterMap_cons_some hof,
    List.filterMap_nil]

end Path

namespace Utf8

theorem encode_append (text more : List Char) :
    encode (text ++ more) = encode text ++ encode more :=
  List.flatMap_append

theorem encode_cons_separator (text : List Char) :
    encode ('/' :: text) = separator :: encode text := rfl

/-- A separator in what is written comes from a separator in the text. -/
theorem separator_notMem_encode {text : List Char} (h : '/' ∉ text) : separator ∉ encode text := by
  intro hsep
  obtain ⟨front, rest, heq⟩ := List.append_of_mem hsep
  have hread := decode?_encode text
  rw [heq, decode?_append_plain Disk.isPlain_separator] at hread
  cases hfront : decode? front with
  | none =>
    rw [hfront] at hread
    cases hread
  | some a =>
    cases hrest : decode? rest with
    | none =>
      rw [hfront, hrest] at hread
      cases hread
    | some b =>
      rw [hfront, hrest] at hread
      cases hread
      exact h (List.mem_append_right _ List.mem_cons_self)

end Utf8

/-- The names that can only lead to directories are at most two dots. -/
theorem Disk.leadsToDir_encode_iff {name : List Char} :
    Disk.LeadsToDir (Utf8.encode name) ↔ name.Sublist ['.', '.'] := by
  have hread := Utf8.decode?_encode name
  constructor
  · intro h
    have hname : name = [] ∨ name = ['.'] ∨ name = ['.', '.'] := by
      rcases h with h | h | h
      · rw [h] at hread
        exact .inl (Option.some.inj hread).symm
      · rw [h] at hread
        exact .inr (.inl (Option.some.inj hread).symm)
      · rw [h] at hread
        exact .inr (.inr (Option.some.inj hread).symm)
    rcases hname with rfl | rfl | rfl <;> decide
  · intro h
    have htwo : name.Sublist (List.replicate 2 '.') := h
    obtain ⟨n, hn, rfl⟩ := List.sublist_replicate_iff.1 htwo
    obtain rfl | rfl | rfl : n = 0 ∨ n = 1 ∨ n = 2 := by omega
    · exact .inl rfl
    · exact .inr (.inl rfl)
    · exact .inr (.inr rfl)

/-- A list is divided at the last place where something stands. -/
theorem exists_last_split {α : Type} {a : α} {l : List α} (h : a ∈ l) :
    ∃ front rest, l = front ++ a :: rest ∧ a ∉ rest := by
  obtain ⟨front, rest, heq, hnot⟩ := List.eq_append_cons_of_mem (List.mem_reverse.2 h)
  refine ⟨rest.reverse, front.reverse, ?_, by simpa using hnot⟩
  rw [← List.reverse_reverse l, heq]
  simp

end CertRotation
