import CertRotation.Tls.Certificate
import CertRotation.Tls.Error
import CertRotation.Tls.PrivateKey

/-!
# TLS material

Material is what a server or a client needs: a chain of certificates with the key of the first one,
and the trust anchors that the other side is checked against.

`Material.assemble` puts it together from PEM texts.  It leaves the reading of certificates and keys
to a record of `Readers`; `Readers.standard` are the readers of this library.
-/

set_option autoImplicit false

namespace CertRotation

/-- A text under the name it is known by. -/
structure PemSource where
  name : Key
  text : Bytes

/-- The texts that material is put together from. -/
structure PemSources where
  chain : PemSource
  key : PemSource
  ca : Option PemSource

/-- How a key and a chain go together. -/
inductive Pairing where
  | matched
  /-- Nothing can be said about keys of this kind. -/
  | unknown
  | mismatched
  deriving DecidableEq

/-- The ways to read PEM texts, keys and trust anchors. -/
structure Readers where
  certificates : Bytes → Except String (List Bytes)
  privateKey : Bytes → Except String (Option PemSection)
  load : PemSection → Except String SigningKey
  pairing : List Bytes → SigningKey → Pairing
  /-- The trust anchors among some certificates, and how many are none. -/
  anchors : List Bytes → List Bytes × Nat

namespace Readers

/-- Whether a key belongs to the first certificate of a chain. -/
def standardPairing (chain : List Bytes) (key : SigningKey) : Pairing :=
  match chain with
  | [] => .mismatched
  | leaf :: _ =>
    match Certificate.read leaf with
    | .ok certificate => if certificate.subjectKey = key.subjectKey then .matched else .mismatched
    | .error _ => .mismatched

/-- The readers of this library. -/
def standard : Readers where
  certificates text := (Pem.certificates text).mapError PemFault.message
  privateKey text := (Pem.privateKey text).mapError PemFault.message
  load s :=
    match SigningKey.load? s with
    | some key => .ok key
    | none => .error SigningKey.refusal
  pairing := standardPairing
  anchors certificates :=
    let (found, rest) := certificates.partition Certificate.isTrustAnchor
    (found, rest.length)

/-- The certificates of a text, of which there must be one. -/
def readChain (r : Readers) (text : Bytes) : Except String (List Bytes) :=
  match r.certificates text with
  | .ok [] => .error "no PEM certificate found"
  | other => other

/-- The private key of a text. -/
def readKey (r : Readers) (text : Bytes) : Except String PemSection :=
  match r.privateKey text with
  | .ok (some s) => .ok s
  | .ok none => .error "no PEM private key found"
  | .error reason => .error reason

/-- The trust anchors of a text, of which there must be one. -/
def readAnchors (r : Readers) (text : Bytes) : Except String (List Bytes) :=
  match r.readChain text with
  | .error reason => .error reason
  | .ok certificates =>
    match r.anchors certificates with
    | ([], ignored) =>
      .error ("none of " ++ toString ignored ++ " certificates usable as trust anchors")
    | (anchors, _) => .ok anchors

end Readers

/-- A chain of certificates, the own one first, and its key. -/
structure Identity where
  chain : List Bytes
  key : SigningKey

/-- What a server or a client needs. -/
structure Material where
  /-- The chains with their keys, of which there is always one. -/
  identities : List Identity
  /-- The trust anchors; empty if there is no bundle of them. -/
  anchors : List Bytes

/-- How a server presents itself. -/
structure ServerSetup where
  identity : Identity
  /-- The trust anchors that the certificates of clients must lead to, if clients need any. -/
  clientAnchors : Option (List Bytes)

/-- How a client presents itself, and what it trusts. -/
structure ClientSetup where
  identity : Identity
  anchors : List Bytes

namespace Material

/-- Puts material together.  The first stage that fails decides: reading the chain, reading the key,
loading it, comparing it with the chain, and reading the trust anchors. -/
def assemble (r : Readers) (sources : PemSources) : Except CertError Material := do
  let chain ← (r.readChain sources.chain.text).mapError (.certificateParse sources.chain.name)
  let s ← (r.readKey sources.key.text).mapError (.privateKeyParse sources.key.name)
  let key ← (r.load s).mapError (.privateKeyParse sources.key.name)
  if r.pairing chain key = .mismatched then .error .keyMismatch
  let anchors ←
    match sources.ca with
    | some ca => (r.readAnchors ca.text).mapError (.caBundle ca.name)
    | none => .ok []
  .ok ⟨[⟨chain, key⟩], anchors⟩

/-- The chain that is presented, with its key. -/
def identity? (m : Material) : Option Identity := m.identities.head?

/-- The certificate that is presented. -/
def leaf? (m : Material) : Option Bytes := m.identity?.bind fun i => i.chain.head?

/-- The chain that is presented, which must be there. -/
def presented (m : Material) : Except CertError Identity :=
  match m.identity? with
  | some i => .ok i
  | none => .error (.configuration "no certificate loaded")

/-- A server with this material.  It wants certificates of its clients exactly if there are trust
anchors. -/
def server (m : Material) : Except CertError ServerSetup := do
  let identity ← m.presented
  .ok ⟨identity, if m.anchors.isEmpty then none else some m.anchors⟩

/-- A client with this material. -/
def client (m : Material) : Except CertError ClientSetup := do
  let identity ← m.presented
  .ok ⟨identity, m.anchors⟩

end Material
end CertRotation
