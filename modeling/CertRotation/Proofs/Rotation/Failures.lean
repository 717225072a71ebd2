import CertRotation.Proofs.Tls.Assembly
import CertRotation.Proofs.Watch.Loading
import CertRotation.Rotation.Directory

/-!
# What can keep a directory from giving material

A reload scans the directory and puts material together.  What can go wrong is known: a root cannot
be read, a file is missing, or the content of a file is not what it should be.  Each of these may
pass while the files are exchanged, so each of them is worth another attempt.

* `CertDirectory.Fails` — the failures that are possible;
* `CertDirectory.fails_of_assemble` — there are no others;
* `CertDirectory.isRetryable_of_assemble` — **every one of them is worth another attempt**.
-/

set_option autoImplicit false

namespace CertRotation

theorem bind_eq_error {ε α β : Type} {x : Except ε α} {f : α → Except ε β} {e : ε} :
    (x >>= f) = .error e ↔ x = .error e ∨ ∃ a, x = .ok a ∧ f a = .error e := by
  cases x with
  | error e' => simp [bind, Except.bind]
  | ok a => simp [bind, Except.bind]

theorem Except.mapError_eq_error {ε ε' α : Type} {f : ε → ε'} {x : Except ε α} {e : ε'} :
    x.mapError f = .error e ↔ ∃ reason, x = .error reason ∧ f reason = e := by
  cases x with
  | error reason => simp [Except.mapError]
  | ok a => simp [Except.mapError]

/-- The failure of a scan is about a root. -/
theorem Loader.exists_of_scanRoots {disk : Disk} {l : Loader} {roots : List Path} {e : WatchError}
    (h : (scanRoots disk l roots).1 = .error e) :
    ∃ root ∈ roots, ∃ fault, e = .initialScan root fault := by
  rw [fst_scanRoots] at h
  cases hstop : disk.stop? roots with
  | none =>
    rw [hstop] at h
    cases h
  | some stop =>
    obtain ⟨root, fault⟩ := stop
    obtain ⟨before, after, rfl, -⟩ := Disk.stop?_eq_some.1 hstop
    rw [hstop] at h
    cases h
    exact ⟨root, by simp, fault, rfl⟩

/-- Where the assembly of material fails, the failure names the text that it is about. -/
theorem Material.error_of_assemble {r : Readers} {sources : PemSources} {e : CertError}
    (h : assemble r sources = .error e) :
    (∃ reason, e = .certificateParse sources.chain.name reason) ∨
      (∃ reason, e = .privateKeyParse sources.key.name reason) ∨ e = .keyMismatch ∨
      ∃ ca reason, sources.ca = some ca ∧ e = .caBundle ca.name reason := by
  rw [assemble, bind_eq_error] at h
  rcases h with h | ⟨chain, -, h⟩
  · obtain ⟨reason, -, rfl⟩ := Except.mapError_eq_error.1 h
    exact .inl ⟨reason, rfl⟩
  rcases bind_eq_error.1 h with h | ⟨s, -, h⟩
  · obtain ⟨reason, -, rfl⟩ := Except.mapError_eq_error.1 h
    exact .inr (.inl ⟨reason, rfl⟩)
  rcases bind_eq_error.1 h with h | ⟨key, -, h⟩
  · obtain ⟨reason, -, rfl⟩ := Except.mapError_eq_error.1 h
    exact .inr (.inl ⟨reason, rfl⟩)
  dsimp only at h
  split at h
  · cases h
    exact .inr (.inr (.inl rfl))
  cases hca : sources.ca with
  | none =>
    rw [hca] at h
    cases h
  | some ca =>
    rw [hca] at h
    rcases bind_eq_error.1 h with h | ⟨anchors, -, h⟩
    · obtain ⟨reason, -, rfl⟩ := Except.mapError_eq_error.1 h
      exact .inr (.inr (.inr ⟨ca, reason, rfl, rfl⟩))
    · cases h

namespace CertDirectory

variable {d : CertDirectory} {r : Readers} {disk : Disk} {e : CertError}

/-- What can go wrong when a directory is loaded again and material is put together. -/
inductive Fails (d : CertDirectory) : CertError → Prop
  | unreadable {root : Path} (hroot : root ∈ d.loader.roots) (fault : Fault) :
      Fails d (.watch (.initialScan root fault))
  | missing {file : Key} (hfile : file = d.certFile ∨ file = d.keyFile) : Fails d (.noValue file)
  | chain (reason : String) : Fails d (.certificateParse d.certFile reason)
  | key (reason : String) : Fails d (.privateKeyParse d.keyFile reason)
  | mismatch : Fails d .keyMismatch
  | bundle (reason : String) : Fails d (.caBundle d.caFile reason)

theorem Fails.isRetryable (h : d.Fails e) : Retryable.isRetryable e = true := by
  cases h with
  | unreadable hroot fault => rfl
  | missing hfile => rfl
  | chain reason => rfl
  | key reason => rfl
  | mismatch => rfl
  | bundle reason => rfl

/-- Whatever the store holds, material fails to come from it in one of these ways. -/
theorem fails_of_materialFrom {store : Store}
    (h : materialFrom r store d.certFile d.keyFile d.caFile = .error e) : d.Fails e := by
  rw [materialFrom] at h
  split at h
  · cases h
    exact .missing (.inl rfl)
  · cases h
    exact .missing (.inr rfl)
  · rcases Material.error_of_assemble h with
      ⟨reason, rfl⟩ | ⟨reason, rfl⟩ | rfl | ⟨ca, reason, hca, rfl⟩
    · exact .chain reason
    · exact .key reason
    · exact .mismatch
    · obtain ⟨text, -, rfl⟩ := Option.map_eq_some_iff.1 hca
      exact .bundle reason

/-- **There are no other failures.** -/
theorem fails_of_assemble (h : (d.assemble r disk).1 = .error e) : d.Fails e := by
  rw [assemble, refresh] at h
  rcases hscan : d.loader.scan disk with ⟨answer, loader⟩
  rw [hscan] at h
  cases answer with
  | error reason =>
    cases h
    have hfirst : (d.loader.scan disk).1 = .error reason := by rw [hscan]
    obtain ⟨root, hroot, fault, rfl⟩ := Loader.exists_of_scanRoots hfirst
    exact .unreadable hroot fault
  | ok _ => exact fails_of_materialFrom h

/-- **Every failure is worth another attempt.** -/
theorem isRetryable_of_assemble (h : (d.assemble r disk).1 = .error e) :
    Retryable.isRetryable e = true :=
  (fails_of_assemble h).isRetryable

end CertDirectory

end CertRotation
