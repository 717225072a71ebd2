import CertRotation.Proofs.Disk.Lookup
import CertRotation.Tls.Material

/-!
# What assembled material is like

Material that has been put together has one identity.  It has trust anchors exactly if there was a
bundle of them, for a bundle without a usable certificate is refused, and a server with the material
wants certificates of its clients exactly if it has trust anchors.

* `Readers.readAnchors_ne_nil` — a bundle gives trust anchors or a failure;
* `Material.of_assemble` — the identity and the trust anchors of assembled material;
* `Material.exists_server` — the server with such material.
-/

set_option autoImplicit false

namespace CertRotation

theorem Except.mapError_eq_ok {ε ε' α : Type} {f : ε → ε'} {x : Except ε α} {a : α} :
    x.mapError f = .ok a ↔ x = .ok a := by
  cases x with
  | error e => simp [Except.mapError]
  | ok b => simp [Except.mapError]

/-- A bundle of trust anchors that can be read has one. -/
theorem Readers.readAnchors_ne_nil {r : Readers} {text : Bytes} {anchors : List Bytes}
    (h : r.readAnchors text = .ok anchors) : anchors ≠ [] := by
  rw [readAnchors] at h
  split at h
  · cases h
  · split at h
    · cases h
    · rename_i hne _
      cases h
      exact hne

namespace Material

variable {r : Readers} {sources : PemSources} {m : Material}

/-- **What assembled material is like.** -/
theorem of_assemble (h : assemble r sources = .ok m) :
    (∃ i, m.identities = [i]) ∧ (m.anchors = [] ↔ sources.ca = none) := by
  rw [assemble, bind_eq_ok] at h
  obtain ⟨chain, -, h⟩ := h
  obtain ⟨s, -, h⟩ := bind_eq_ok.1 h
  obtain ⟨key, -, h⟩ := bind_eq_ok.1 h
  dsimp only at h
  split at h
  · obtain ⟨_, hmismatch, _⟩ := bind_eq_ok.1 h
    cases hmismatch
  · cases hca : sources.ca with
    | none =>
      rw [hca] at h
      cases h
      exact ⟨⟨_, rfl⟩, by simp⟩
    | some ca =>
      rw [hca] at h
      obtain ⟨anchors, hanchors, h⟩ := bind_eq_ok.1 h
      cases h
      rw [Except.mapError_eq_ok] at hanchors
      exact ⟨⟨_, rfl⟩, by simpa using Readers.readAnchors_ne_nil hanchors⟩

/-- A server with one identity wants certificates of its clients if there are trust anchors. -/
theorem exists_server {i : Identity} (h : m.identities = [i]) :
    ∃ setup, m.server = .ok setup ∧ setup.identity = i ∧
      (setup.clientAnchors = none ↔ m.anchors = []) := by
  have hpresented : m.presented = .ok i := by rw [presented, identity?, h]; rfl
  refine ⟨⟨i, if m.anchors.isEmpty then none else some m.anchors⟩, ?_, rfl, ?_⟩
  · rw [server, hpresented]
    rfl
  · simp

end Material

end CertRotation
