import CertRotation.Proofs.Rotation.Bundle
import CertRotation.Proofs.Rotation.Failures

/-!
# Which failure keeps material from being put together

A directory puts material together in stages: it looks up the chain and the key, reads the chain,
reads the key, loads it, compares the two, and reads the trust anchors if the store holds a bundle
of them.  Several of these may be bound to fail at once, for a rotation exchanges files one by one.
The failure that is reported is the one of the first such stage, and material is there only if there
is none.

What can go wrong at a stage is said here of the readers as they are given, and not of the functions
that wrap them: an empty chain, a text without a key and a bundle without a usable certificate are
faults that the readers themselves do not see.  The last of them matters most.  A bundle that gives
no trust anchors must not be taken for a bundle that is not there, since a server without trust
anchors asks its clients for nothing.

* `Readers.ChainFault`, `Readers.KeyFault`, `Readers.BundleFault` — what can be wrong with a text;
* `CertDirectory.Stage`, `CertDirectory.FailsAt` — the stages in their order, and how each fails;
* `CertDirectory.get_eq_error_iff` — the failure is the one of the first stage that fails;
* `CertDirectory.get_eq_ok_iff` — what material is made of;
* `CertDirectory.get_failsClosed` — **assembly is exact and fails closed**.
-/

set_option autoImplicit false

namespace CertRotation

/-! ## What can be wrong with a text -/

namespace Readers

variable {r : Readers} {text : Bytes} {reason : String}

/-- A text gives no chain of certificates. -/
inductive ChainFault (r : Readers) (text : Bytes) : String → Prop
  | unreadable {reason : String} (h : r.certificates text = .error reason) :
      ChainFault r text reason
  | empty (h : r.certificates text = .ok []) : ChainFault r text "no PEM certificate found"

/-- A text gives no private key. -/
inductive KeyFault (r : Readers) (text : Bytes) : String → Prop
  | unreadable {reason : String} (h : r.privateKey text = .error reason) : KeyFault r text reason
  | missing (h : r.privateKey text = .ok none) : KeyFault r text "no PEM private key found"

/-- A text gives no trust anchors. -/
inductive BundleFault (r : Readers) (text : Bytes) : String → Prop
  | chain {reason : String} (h : r.ChainFault text reason) : BundleFault r text reason
  | useless {certificates : List Bytes} (h : r.certificates text = .ok certificates)
      (hne : certificates ≠ []) (hnone : (r.anchors certificates).1 = []) :
      BundleFault r text ("none of " ++ toString (r.anchors certificates).2 ++
        " certificates usable as trust anchors")

theorem readChain_eq_error : r.readChain text = .error reason ↔ r.ChainFault text reason := by
  constructor
  · intro h
    rw [readChain] at h
    split at h
    · cases h
      exact .empty ‹_›
    · exact .unreadable h
  · intro h
    cases h with
    | unreadable h => rw [readChain, h]
    | empty h => rw [readChain, h]

theorem readChain_eq_ok {chain : List Bytes} :
    r.readChain text = .ok chain ↔ r.certificates text = .ok chain ∧ chain ≠ [] := by
  rw [readChain]
  constructor
  · intro h
    split at h
    · cases h
    · rename_i hne
      exact ⟨h, fun hnil => hne (hnil ▸ h)⟩
  · rintro ⟨h, hne⟩
    split
    · rename_i hnil
      exact absurd (Except.ok.inj (h.symm.trans hnil)) hne
    · exact h

theorem readKey_eq_error : r.readKey text = .error reason ↔ r.KeyFault text reason := by
  constructor
  · intro h
    rw [readKey] at h
    split at h
    · cases h
    · cases h
      exact .missing ‹_›
    · cases h
      exact .unreadable ‹_›
  · intro h
    cases h with
    | unreadable h => rw [readKey, h]
    | missing h => rw [readKey, h]

theorem readKey_eq_ok {s : PemSection} :
    r.readKey text = .ok s ↔ r.privateKey text = .ok (some s) := by
  rw [readKey]
  split <;> simp_all

theorem readAnchors_eq_error : r.readAnchors text = .error reason ↔ r.BundleFault text reason := by
  rw [readAnchors]
  constructor
  · intro h
    split at h
    · rename_i hchain
      cases h
      exact .chain (readChain_eq_error.1 hchain)
    · rename_i certificates hchain
      obtain ⟨hread, hne⟩ := readChain_eq_ok.1 hchain
      split at h
      · rename_i ignored hanchors
        cases h
        have hfault := BundleFault.useless hread hne (by rw [hanchors])
        rwa [hanchors] at hfault
      · cases h
  · intro h
    cases h with
    | chain h => rw [readChain_eq_error.2 h]
    | @useless certificates h hne hnone =>
      rw [readChain_eq_ok.2 ⟨h, hne⟩]
      rcases hanchors : r.anchors certificates with ⟨anchors, ignored⟩
      rw [hanchors] at hnone
      cases hnone
      simp only [hanchors]

theorem readAnchors_eq_ok {anchors : List Bytes} :
    r.readAnchors text = .ok anchors ↔
      ∃ certificates, r.certificates text = .ok certificates ∧ certificates ≠ [] ∧
        (r.anchors certificates).1 = anchors ∧ anchors ≠ [] := by
  constructor
  · intro h
    have hne := readAnchors_ne_nil h
    rw [readAnchors] at h
    split at h
    · cases h
    · rename_i certificates hchain
      obtain ⟨hread, hsome⟩ := readChain_eq_ok.1 hchain
      split at h
      · cases h
      · rename_i hanchors
        cases h
        exact ⟨certificates, hread, hsome, by rw [hanchors], hne⟩
  · rintro ⟨certificates, hread, hsome, rfl, hne⟩
    rw [readAnchors, readChain_eq_ok.2 ⟨hread, hsome⟩]
    rcases hanchors : r.anchors certificates with ⟨_ | ⟨a, anchors⟩, ignored⟩
    · rw [hanchors] at hne
      exact absurd rfl hne
    · simp only [hanchors]

end Readers

namespace CertDirectory

variable {d : CertDirectory} {r : Readers} {m : Material} {e e' : CertError}

/-! ## Stages -/

/-- The stages in which material is put together. -/
inductive Stage where
  | findChain
  | findKey
  | readChain
  | readKey
  | loadKey
  | compare
  | readBundle
  deriving DecidableEq

namespace Stage

/-- The stages in the order in which they are gone through. -/
def inOrder : List Stage :=
  [findChain, findKey, readChain, readKey, loadKey, compare, readBundle]

/-- The stages that come before a stage. -/
def before (stage : Stage) : List Stage := inOrder.takeWhile (· ≠ stage)

theorem before_total (a b : Stage) : a = b ∨ a ∈ b.before ∨ b ∈ a.before := by
  cases a <;> cases b <;> decide

end Stage

/-- How a stage fails, and with which failure. -/
inductive FailsAt (d : CertDirectory) (r : Readers) : Stage → CertError → Prop
  | noChain (h : d.loader.store.get? d.certFile = none) :
      FailsAt d r .findChain (.noValue d.certFile)
  | noKey (h : d.loader.store.get? d.keyFile = none) : FailsAt d r .findKey (.noValue d.keyFile)
  | chain {text : Bytes} {reason : String} (h : d.loader.store.get? d.certFile = some text)
      (fault : r.ChainFault text reason) :
      FailsAt d r .readChain (.certificateParse d.certFile reason)
  | key {text : Bytes} {reason : String} (h : d.loader.store.get? d.keyFile = some text)
      (fault : r.KeyFault text reason) : FailsAt d r .readKey (.privateKeyParse d.keyFile reason)
  | load {text : Bytes} {s : PemSection} {reason : String}
      (h : d.loader.store.get? d.keyFile = some text) (hkey : r.privateKey text = .ok (some s))
      (hload : r.load s = .error reason) : FailsAt d r .loadKey (.privateKeyParse d.keyFile reason)
  | mismatch {chainText keyText : Bytes} {chain : List Bytes} {s : PemSection} {key : SigningKey}
      (h : d.loader.store.get? d.certFile = some chainText)
      (hchain : r.certificates chainText = .ok chain)
      (h' : d.loader.store.get? d.keyFile = some keyText)
      (hkey : r.privateKey keyText = .ok (some s)) (hload : r.load s = .ok key)
      (hpairing : r.pairing chain key = .mismatched) : FailsAt d r .compare .keyMismatch
  | bundle {text : Bytes} {reason : String} (h : d.loader.store.get? d.caFile = some text)
      (fault : r.BundleFault text reason) : FailsAt d r .readBundle (.caBundle d.caFile reason)

/-- A stage does not fail. -/
def Clears (d : CertDirectory) (r : Readers) (stage : Stage) : Prop := ∀ e, ¬ d.FailsAt r stage e

/-- A failure of a stage, where no stage before it fails. -/
def FailsFirst (d : CertDirectory) (r : Readers) (e : CertError) : Prop :=
  ∃ stage, d.FailsAt r stage e ∧ ∀ earlier ∈ stage.before, d.Clears r earlier

/-- A stage has one way to fail at a time. -/
theorem FailsAt.unique {stage : Stage} (h : d.FailsAt r stage e) (h' : d.FailsAt r stage e') :
    e = e' := by
  cases h with
  | noChain h => cases h'; rfl
  | noKey h => cases h'; rfl
  | chain h fault =>
    cases h' with
    | chain h' fault' =>
      cases h.symm.trans h'
      cases (Readers.readChain_eq_error.2 fault).symm.trans (Readers.readChain_eq_error.2 fault')
      rfl
  | key h fault =>
    cases h' with
    | key h' fault' =>
      cases h.symm.trans h'
      cases (Readers.readKey_eq_error.2 fault).symm.trans (Readers.readKey_eq_error.2 fault')
      rfl
  | load h hkey hload =>
    cases h' with
    | load h' hkey' hload' =>
      cases h.symm.trans h'
      cases hkey.symm.trans hkey'
      cases hload.symm.trans hload'
      rfl
  | mismatch => cases h'; rfl
  | bundle h fault =>
    cases h' with
    | bundle h' fault' =>
      cases h.symm.trans h'
      cases (Readers.readAnchors_eq_error.2 fault).symm.trans
        (Readers.readAnchors_eq_error.2 fault')
      rfl

/-- Only one failure comes first. -/
theorem FailsFirst.unique (h : d.FailsFirst r e) (h' : d.FailsFirst r e') : e = e' := by
  obtain ⟨a, hfails, hbefore⟩ := h
  obtain ⟨b, hfails', hbefore'⟩ := h'
  rcases a.before_total b with rfl | hab | hba
  · exact hfails.unique hfails'
  · exact absurd hfails (hbefore' a hab e)
  · exact absurd hfails' (hbefore b hba e')

/-! ### Stages that do not fail -/

section Clears

variable {chainText keyText : Bytes} {chain : List Bytes} {s : PemSection} {key : SigningKey}

theorem clears_findChain (h : d.loader.store.get? d.certFile = some chainText) :
    d.Clears r .findChain := by
  intro e hfails
  cases hfails with
  | noChain h' => cases h.symm.trans h'

theorem clears_findKey (h : d.loader.store.get? d.keyFile = some keyText) :
    d.Clears r .findKey := by
  intro e hfails
  cases hfails with
  | noKey h' => cases h.symm.trans h'

theorem clears_readChain (h : d.loader.store.get? d.certFile = some chainText)
    (hchain : r.readChain chainText = .ok chain) : d.Clears r .readChain := by
  intro e hfails
  cases hfails with
  | chain h' fault =>
    cases h.symm.trans h'
    cases hchain.symm.trans (Readers.readChain_eq_error.2 fault)

theorem clears_readKey (h : d.loader.store.get? d.keyFile = some keyText)
    (hkey : r.readKey keyText = .ok s) : d.Clears r .readKey := by
  intro e hfails
  cases hfails with
  | key h' fault =>
    cases h.symm.trans h'
    cases hkey.symm.trans (Readers.readKey_eq_error.2 fault)

theorem clears_loadKey (h : d.loader.store.get? d.keyFile = some keyText)
    (hkey : r.readKey keyText = .ok s) (hload : r.load s = .ok key) : d.Clears r .loadKey := by
  intro e hfails
  cases hfails with
  | load h' hkey' hload' =>
    cases h.symm.trans h'
    cases (Readers.readKey_eq_ok.1 hkey).symm.trans hkey'
    cases hload.symm.trans hload'

theorem clears_compare (h : d.loader.store.get? d.certFile = some chainText)
    (hchain : r.readChain chainText = .ok chain) (h' : d.loader.store.get? d.keyFile = some keyText)
    (hkey : r.readKey keyText = .ok s) (hload : r.load s = .ok key)
    (hpairing : r.pairing chain key ≠ .mismatched) : d.Clears r .compare := by
  intro e hfails
  cases hfails with
  | mismatch g gchain g' gkey gload gpairing =>
    cases h.symm.trans g
    cases (Readers.readChain_eq_ok.1 hchain).1.symm.trans gchain
    cases h'.symm.trans g'
    cases (Readers.readKey_eq_ok.1 hkey).symm.trans gkey
    cases hload.symm.trans gload
    exact hpairing gpairing

/-- The bundle of trust anchors is read if there is one. -/
theorem clears_readBundle (h : ∀ text, d.loader.store.get? d.caFile = some text →
    ∃ anchors, r.readAnchors text = .ok anchors) : d.Clears r .readBundle := by
  intro e hfails
  cases hfails with
  | bundle h' fault =>
    obtain ⟨anchors, hanchors⟩ := h _ h'
    cases hanchors.symm.trans (Readers.readAnchors_eq_error.2 fault)

end Clears

/-! ## The failure that is reported -/

/-- The failure that is reported is the one of the first stage that fails. -/
theorem failsFirst_of_get (h : d.get r = .error e) : d.FailsFirst r e := by
  rw [get, materialFrom] at h
  split at h
  · rename_i hcert
    cases h
    exact ⟨.findChain, .noChain hcert, by simp [Stage.before, Stage.inOrder]⟩
  · rename_i hcert hfile
    cases h
    exact ⟨.findKey, .noKey hfile, by
      simp [Stage.before, Stage.inOrder, clears_findChain hcert]⟩
  rename_i chainText keyText hcert hfile
  have hfindChain : d.Clears r .findChain := clears_findChain hcert
  have hfindKey : d.Clears r .findKey := clears_findKey hfile
  rw [Material.assemble, bind_eq_error] at h
  rcases h with h | ⟨chain, hchain, h⟩
  · obtain ⟨reason, hreason, rfl⟩ := Except.mapError_eq_error.1 h
    exact ⟨.readChain, .chain hcert (Readers.readChain_eq_error.1 hreason), by
      simp [Stage.before, Stage.inOrder, *]⟩
  rw [Except.mapError_eq_ok] at hchain
  have hreadChain := clears_readChain hcert hchain
  rcases bind_eq_error.1 h with h | ⟨s, hs, h⟩
  · obtain ⟨reason, hreason, rfl⟩ := Except.mapError_eq_error.1 h
    exact ⟨.readKey, .key hfile (Readers.readKey_eq_error.1 hreason), by
      simp [Stage.before, Stage.inOrder, *]⟩
  rw [Except.mapError_eq_ok] at hs
  have hreadKey := clears_readKey hfile hs
  rcases bind_eq_error.1 h with h | ⟨key, hload, h⟩
  · obtain ⟨reason, hreason, rfl⟩ := Except.mapError_eq_error.1 h
    exact ⟨.loadKey, .load hfile (Readers.readKey_eq_ok.1 hs) hreason, by
      simp [Stage.before, Stage.inOrder, *]⟩
  rw [Except.mapError_eq_ok] at hload
  have hloadKey := clears_loadKey hfile hs hload
  dsimp only at h
  split at h
  · rename_i hpairing
    cases h
    exact ⟨.compare, .mismatch hcert (Readers.readChain_eq_ok.1 hchain).1 hfile
      (Readers.readKey_eq_ok.1 hs) hload hpairing, by simp [Stage.before, Stage.inOrder, *]⟩
  rename_i hpairing
  have hcompare := clears_compare hcert hchain hfile hs hload hpairing
  cases hca : d.loader.store.get? d.caFile with
  | none =>
    rw [hca] at h
    cases h
  | some ca =>
    rw [hca] at h
    rcases bind_eq_error.1 h with h | ⟨anchors, -, h⟩
    · obtain ⟨reason, hreason, rfl⟩ := Except.mapError_eq_error.1 h
      exact ⟨.readBundle, .bundle hca (Readers.readAnchors_eq_error.1 hreason), by
        simp [Stage.before, Stage.inOrder, *]⟩
    · cases h

/-! ## What material is made of -/

/-- What the store of a directory gives for material: the identity of the chain and the key, and the
trust anchors of the bundle. -/
structure Supplies (d : CertDirectory) (r : Readers) (i : Identity) (anchors : List Bytes) :
    Prop where
  chain : ∃ text, d.loader.store.get? d.certFile = some text ∧
    r.certificates text = .ok i.chain ∧ i.chain ≠ []
  key : ∃ text s, d.loader.store.get? d.keyFile = some text ∧ r.privateKey text = .ok (some s) ∧
    r.load s = .ok i.key
  pairing : r.pairing i.chain i.key ≠ .mismatched
  bundle : ∀ text, d.loader.store.get? d.caFile = some text →
    ∃ certificates, r.certificates text = .ok certificates ∧ certificates ≠ [] ∧
      (r.anchors certificates).1 = anchors ∧ anchors ≠ []
  noBundle : d.loader.store.get? d.caFile = none → anchors = []

variable {i : Identity} {anchors : List Bytes}

theorem Supplies.clears (h : d.Supplies r i anchors) (stage : Stage) : d.Clears r stage := by
  obtain ⟨chainText, hcert, hchain⟩ := h.chain
  obtain ⟨keyText, s, hfile, hkey, hload⟩ := h.key
  rw [← Readers.readChain_eq_ok] at hchain
  rw [← Readers.readKey_eq_ok] at hkey
  cases stage with
  | findChain => exact clears_findChain hcert
  | findKey => exact clears_findKey hfile
  | readChain => exact clears_readChain hcert hchain
  | readKey => exact clears_readKey hfile hkey
  | loadKey => exact clears_loadKey hfile hkey hload
  | compare => exact clears_compare hcert hchain hfile hkey hload h.pairing
  | readBundle =>
    exact clears_readBundle fun text hca =>
      ⟨anchors, Readers.readAnchors_eq_ok.2 (h.bundle text hca)⟩

theorem Supplies.get_eq (h : d.Supplies r i anchors) : d.get r = .ok ⟨[i], anchors⟩ := by
  obtain ⟨chainText, hcert, hchain⟩ := h.chain
  obtain ⟨keyText, s, hfile, hkey, hload⟩ := h.key
  rw [get, materialFrom, hcert, hfile]
  dsimp only
  rw [Material.assemble, Readers.readChain_eq_ok.2 hchain, Readers.readKey_eq_ok.2 hkey]
  simp only [Except.mapError, bind, Except.bind, hload, if_neg h.pairing]
  cases hca : d.loader.store.get? d.caFile with
  | none =>
    rw [h.noBundle hca]
    rfl
  | some text =>
    simp only [Option.map_some, Readers.readAnchors_eq_ok.2 (h.bundle text hca)]

theorem exists_supplies_of_get (h : d.get r = .ok m) :
    ∃ i anchors, m = ⟨[i], anchors⟩ ∧ d.Supplies r i anchors := by
  rw [get, materialFrom] at h
  split at h
  · cases h
  · cases h
  rename_i chainText keyText hcert hfile
  rw [Material.assemble, bind_eq_ok] at h
  obtain ⟨chain, hchain, h⟩ := h
  obtain ⟨s, hs, h⟩ := bind_eq_ok.1 h
  obtain ⟨key, hload, h⟩ := bind_eq_ok.1 h
  rw [Except.mapError_eq_ok] at hchain hs hload
  have hchain' := Readers.readChain_eq_ok.1 hchain
  have hkey' := Readers.readKey_eq_ok.1 hs
  dsimp only at h
  split at h
  · obtain ⟨_, hmismatch, _⟩ := bind_eq_ok.1 h
    cases hmismatch
  rename_i hpairing
  cases hca : d.loader.store.get? d.caFile with
  | none =>
    rw [hca] at h
    cases h
    refine ⟨⟨chain, key⟩, [], rfl, ⟨chainText, hcert, hchain'⟩,
      ⟨keyText, s, hfile, hkey', hload⟩, hpairing, fun text hsome => ?_, fun _ => rfl⟩
    rw [hca] at hsome
    cases hsome
  | some text =>
    rw [hca] at h
    obtain ⟨anchors, hanchors, h⟩ := bind_eq_ok.1 h
    cases h
    rw [Except.mapError_eq_ok] at hanchors
    refine ⟨⟨chain, key⟩, anchors, rfl, ⟨chainText, hcert, hchain'⟩,
      ⟨keyText, s, hfile, hkey', hload⟩, hpairing, fun text' hsome => ?_, fun hnone => ?_⟩
    · cases hca.symm.trans hsome
      exact Readers.readAnchors_eq_ok.1 hanchors
    · rw [hca] at hnone
      cases hnone

/-- **What material is made of.** -/
theorem get_eq_ok_iff :
    d.get r = .ok m ↔ ∃ i anchors, m = ⟨[i], anchors⟩ ∧ d.Supplies r i anchors := by
  constructor
  · exact exists_supplies_of_get
  · rintro ⟨i, anchors, rfl, h⟩
    exact h.get_eq

/-- **The failure that is reported** is the one of the first stage that fails. -/
theorem get_eq_error_iff : d.get r = .error e ↔ d.FailsFirst r e := by
  refine ⟨failsFirst_of_get, fun h => ?_⟩
  cases hget : d.get r with
  | error e' => rw [h.unique (failsFirst_of_get hget)]
  | ok m =>
    obtain ⟨i, anchors, -, hsupplies⟩ := exists_supplies_of_get hget
    obtain ⟨stage, hfails, -⟩ := h
    exact absurd hfails (hsupplies.clears stage e)

/-! ## Missing entries and bundles -/

theorem get?_of_failsAt_noValue {stage : Stage} {file : Key}
    (h : d.FailsAt r stage (.noValue file)) :
    (file = d.certFile ∨ file = d.keyFile) ∧ d.loader.store.get? file = none := by
  cases h with
  | noChain h => exact ⟨.inl rfl, h⟩
  | noKey h => exact ⟨.inr rfl, h⟩

theorem get_eq_noValue_certFile_iff :
    d.get r = .error (.noValue d.certFile) ↔ d.loader.store.get? d.certFile = none := by
  rw [get_eq_error_iff]
  constructor
  · rintro ⟨stage, hfails, -⟩
    exact (get?_of_failsAt_noValue hfails).2
  · intro h
    exact ⟨.findChain, .noChain h, by simp [Stage.before, Stage.inOrder]⟩

theorem get_eq_noValue_keyFile_iff {text : Bytes}
    (hcert : d.loader.store.get? d.certFile = some text) :
    d.get r = .error (.noValue d.keyFile) ↔ d.loader.store.get? d.keyFile = none := by
  rw [get_eq_error_iff]
  constructor
  · rintro ⟨stage, hfails, -⟩
    exact (get?_of_failsAt_noValue hfails).2
  · intro h
    exact ⟨.findKey, .noKey h, by simp [Stage.before, Stage.inOrder, clears_findChain hcert]⟩

/-- A bundle that cannot be used keeps material from being put together. -/
theorem exists_error_of_bundleFault {text : Bytes} {reason : String}
    (hca : d.loader.store.get? d.caFile = some text) (hfault : r.BundleFault text reason) :
    ∃ e, d.get r = .error e := by
  cases hget : d.get r with
  | error e => exact ⟨e, rfl⟩
  | ok m =>
    obtain ⟨i, anchors, -, h⟩ := exists_supplies_of_get hget
    exact absurd (.bundle hca hfault) (h.clears .readBundle _)

/-- **Assembly is exact and fails closed**, for any readers and whatever the store holds.

The failure is the one of the first stage that fails.  So it is that the chain has no value exactly
if it has none, and otherwise that the key has none exactly if it has none.  Material has one
identity, and trust anchors exactly if the store holds a bundle: then, and only then, does a server
want certificates of its clients, and a bundle that cannot be used is a failure.  Nothing else that
the store holds makes a difference. -/
theorem get_failsClosed (d : CertDirectory) (r : Readers) :
    (∀ e, d.get r = .error e ↔ d.FailsFirst r e) ∧
    (d.get r = .error (.noValue d.certFile) ↔ d.loader.store.get? d.certFile = none) ∧
    ((d.loader.store.get? d.certFile).isSome →
      (d.get r = .error (.noValue d.keyFile) ↔ d.loader.store.get? d.keyFile = none)) ∧
    (∀ m, d.get r = .ok m ↔ ∃ i anchors, m = ⟨[i], anchors⟩ ∧ d.Supplies r i anchors) ∧
    (∀ m, d.get r = .ok m →
      (m.anchors = [] ↔ d.loader.store.get? d.caFile = none) ∧
      ∃ setup, m.server = .ok setup ∧
        (setup.clientAnchors.isSome ↔ (d.loader.store.get? d.caFile).isSome)) ∧
    (∀ text reason, d.loader.store.get? d.caFile = some text → r.BundleFault text reason →
      ∃ e, d.get r = .error e) ∧
    (∀ d' : CertDirectory, d'.certFile = d.certFile → d'.keyFile = d.keyFile →
      d'.caFile = d.caFile →
      (∀ file ∈ [d.certFile, d.keyFile, d.caFile],
        d'.loader.store.get? file = d.loader.store.get? file) →
      d'.get r = d.get r) := by
  refine ⟨fun e => get_eq_error_iff, get_eq_noValue_certFile_iff, fun hcert => ?_,
    fun m => get_eq_ok_iff, fun m hget => ?_, fun text reason => exists_error_of_bundleFault,
    fun d' hcert hkey hca hagree => ?_⟩
  · obtain ⟨text, htext⟩ := Option.isSome_iff_exists.1 hcert
    exact get_eq_noValue_keyFile_iff htext
  · obtain ⟨⟨i, hidentity⟩, hanchors⟩ := of_get hget
    obtain ⟨setup, hsetup, -, hclient⟩ := Material.exists_server hidentity
    refine ⟨hanchors, setup, hsetup, ?_⟩
    rw [← not_iff_not, Option.not_isSome_iff_eq_none, Option.not_isSome_iff_eq_none, hclient,
      hanchors]
  · simp only [List.forall_mem_cons] at hagree
    obtain ⟨hchain, hfile, hbundle, -⟩ := hagree
    rw [get, get, materialFrom, materialFrom, hcert, hkey, hca, hchain, hfile, hbundle]

/-- A directory that holds a chain and a key, and a bundle if one is given. -/
def holding (bundle : Option Bytes) : CertDirectory :=
  let held := (Store.empty.insert "tls.crt".toList chainText).insert "tls.key".toList keyText
  let store := bundle.elim held (held.insert "ca.crt".toList)
  ⟨⟨[], KeyResolver.make .nameWithExtension none [], store, LoaderConfig.usualOps, none, false,
    none⟩, "tls.crt".toList, "tls.key".toList, "ca.crt".toList⟩

/-- A bundle without a certificate keeps material from being put together; without a bundle there is
material, whatever else the store holds, and its server asks clients for nothing. -/
theorem get_failsClosed_holding :
    ((holding (some keyText)).get lenient = .error (.noValue "tls.key".toList) ↔
        (holding (some keyText)).loader.store.get? "tls.key".toList = none) ∧
      (∃ e, (holding (some keyText)).get lenient = .error e) ∧
      (∃ m setup, (holding none).get lenient = .ok m ∧ m.anchors = [] ∧ m.server = .ok setup ∧
        ¬ setup.clientAnchors.isSome) ∧
      let d := holding none
      ({ d with loader := { d.loader with
          store := d.loader.store.insert "other.crt".toList keyText } } : CertDirectory).get
        lenient = d.get lenient := by
  obtain ⟨-, -, hkey, -, -, hbundle, -⟩ := get_failsClosed (holding (some keyText)) lenient
  obtain ⟨-, -, -, -, hmaterial, -, hagree⟩ := get_failsClosed (holding none) lenient
  refine ⟨hkey rfl, hbundle keyText _ rfl (.chain (.empty rfl)), ?_, ?_⟩
  · obtain ⟨m, hget⟩ : ∃ m, (holding none).get lenient = .ok m := ⟨_, rfl⟩
    obtain ⟨hanchors, setup, hsetup, hclient⟩ := hmaterial m hget
    exact ⟨m, setup, hget, hanchors.2 rfl, hsetup, fun hsome => nomatch hclient.1 hsome⟩
  · exact hagree _ rfl rfl rfl (by decide)

end CertDirectory
end CertRotation
