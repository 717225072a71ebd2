import CertRotation.Crypto.Edwards
import CertRotation.Crypto.Rsa
import CertRotation.Crypto.ShortCurve
import CertRotation.Tls.Der
import CertRotation.Tls.Pem

/-!
# Private keys

A private key is for RSA, for one of two curves, or for Ed25519.  Loading it checks that its parts
belong together, and in particular that a public key that comes with it is its own.

What is kept of a loaded key is its public key in the form in which certificates hold it
(`SigningKey.subjectKey`), so that it can be compared with a certificate.
-/

set_option autoImplicit false

namespace CertRotation

/-- A private key that has been loaded. -/
inductive SigningKey where
  | rsa (key : RsaKey)
  | p256 (publicKey : Bytes)
  | p384 (publicKey : Bytes)
  | ed25519 (publicKey : Bytes)

namespace SigningKey

/-! ## Algorithms -/

/-- The identifier of RSA, with its empty parameters. -/
def rsaAlgorithm : Bytes :=
  [0x06, 0x09, 0x2a, 0x86, 0x48, 0x86, 0xf7, 0x0d, 0x01, 0x01, 0x01, 0x05, 0x00]

/-- The identifier of keys on curves. -/
def curveAlgorithm : Bytes := [0x06, 0x07, 0x2a, 0x86, 0x48, 0xce, 0x3d, 0x02, 0x01]

/-- The identifier of the curve P-256. -/
def p256Identifier : Bytes := [0x06, 0x08, 0x2a, 0x86, 0x48, 0xce, 0x3d, 0x03, 0x01, 0x07]

/-- The identifier of the curve P-384. -/
def p384Identifier : Bytes := [0x06, 0x05, 0x2b, 0x81, 0x04, 0x00, 0x22]

/-- The identifier of Ed25519. -/
def ed25519Algorithm : Bytes := [0x06, 0x03, 0x2b, 0x65, 0x70]

/-- A public key as certificates hold it: the algorithm and the key. -/
def wrap (algorithm publicKey : Bytes) : Bytes :=
  Der.write Der.sequence
    (Der.write Der.sequence algorithm ++ Der.write Der.bitString (0 :: publicKey))

/-- The public key of a private key as certificates hold it. -/
def subjectKey : SigningKey → Bytes
  | rsa key =>
    wrap rsaAlgorithm
      (Der.write Der.sequence (Der.writeNatural key.modulus ++ Der.writeNatural key.publicExponent))
  | p256 publicKey => wrap (curveAlgorithm ++ p256Identifier) publicKey
  | p384 publicKey => wrap (curveAlgorithm ++ p384Identifier) publicKey
  | ed25519 publicKey => wrap ed25519Algorithm publicKey

/-! ## The common envelope -/

/-- A key in the envelope that names its algorithm. -/
structure Enveloped where
  key : Bytes
  publicKey : Option Bytes

/-- The envelopes that are taken: the first version, which has no public key, or also the second,
which must have one. -/
inductive EnvelopeVersions where
  | first
  | firstAndSecond
  deriving DecidableEq

/-- Passes over the attributes of a key, if there are any. -/
def skipAttributes (bytes : Bytes) : Option Bytes :=
  if Der.nextIs (Der.numbered 0) bytes then (Der.tagged (Der.numbered 0) bytes).map Prod.snd
  else some bytes

/-- Reads the content of an envelope for a key with the given algorithm. -/
def readEnvelope (versions : EnvelopeVersions) (algorithm : Bytes) : Der.Reader Enveloped :=
  fun bytes => do
    let (version, bytes) ← Der.small bytes
    if 1 < version then none
    let (found, bytes) ← Der.tagged Der.sequence bytes
    if found ≠ algorithm then none
    if version = 1 ∧ versions = .first then none
    let (key, bytes) ← Der.tagged Der.octetString bytes
    let bytes ← skipAttributes bytes
    if version = 0 then some (⟨key, none⟩, bytes)
    else
      let (publicKey, bytes) ← Der.nested (Der.numbered 1) Der.wholeBits bytes
      some (⟨key, some publicKey⟩, bytes)

/-- Opens an envelope. -/
def openEnvelope (versions : EnvelopeVersions) (algorithm der : Bytes) : Option Enveloped :=
  Der.all (Der.nested Der.sequence (readEnvelope versions algorithm)) der

/-! ## RSA -/

/-- Reads the parts of an RSA key.  The exponent of the public key has at most five bytes. -/
def readRsa : Der.Reader RsaKey := fun bytes => do
  let (version, bytes) ← Der.small bytes
  if version ≠ 0 then none
  let (n, bytes) ← Der.natural bytes
  let (e, bytes) ← Der.natural bytes
  let (d, bytes) ← Der.natural bytes
  let (p, bytes) ← Der.natural bytes
  let (q, bytes) ← Der.natural bytes
  let (dp, bytes) ← Der.natural bytes
  let (dq, bytes) ← Der.natural bytes
  let (c, bytes) ← Der.natural bytes
  some (⟨n, e, d, p, q, dp, dq, c⟩, bytes)

/-- Loads an RSA key that stands alone. -/
def loadRsa? (der : Bytes) : Option SigningKey := do
  let key ← Der.all (Der.nested Der.sequence readRsa) der
  if key.isSound then some (rsa key) else none

/-! ## Curves -/

/-- Reads the content of a key on a curve: the private number and the public key.  The curve may be
named again. -/
def readCurveKey (identifier : Bytes) : Der.Reader (Bytes × Bytes) := fun bytes => do
  let (version, bytes) ← Der.small bytes
  if version ≠ 1 then none
  let (secret, bytes) ← Der.tagged Der.octetString bytes
  let bytes ←
    if Der.nextIs (Der.numbered 0) bytes then
      match Der.tagged (Der.numbered 0) bytes with
      | some (found, rest) => if found = identifier then some rest else none
      | none => none
    else some bytes
  let (publicKey, bytes) ← Der.nested (Der.numbered 1) Der.wholeBits bytes
  some ((secret, publicKey), bytes)

/-- Loads a key on a curve from its envelope and gives its public key. -/
def loadCurve? (curve : ShortCurve) (identifier der : Bytes) : Option Bytes := do
  let envelope ← openEnvelope .first (curveAlgorithm ++ identifier) der
  let (secret, publicKey) ←
    Der.all (Der.nested Der.sequence (readCurveKey identifier)) envelope.key
  let number := BigEndian.read secret
  if secret.length ≠ curve.width ∨ number = 0 ∨ curve.order ≤ number then none
  if curve.publicKey? number = some publicKey then some publicKey else none

/-- The envelope for a key on a curve that stands alone. -/
def envelop (identifier der : Bytes) : Bytes :=
  Der.write Der.sequence (Der.writeNatural 0 ++ Der.write Der.sequence (curveAlgorithm ++ identifier)
    ++ Der.write Der.octetString der)

/-- Loads a key on one of the curves, each with its own envelope. -/
def loadCurves? (der : Bytes → Bytes) : Option SigningKey :=
  ((loadCurve? .p256 p256Identifier (der p256Identifier)).map p256).or
    ((loadCurve? .p384 p384Identifier (der p384Identifier)).map p384)

/-! ## Ed25519 -/

/-- Loads a key for Ed25519 from its envelope. -/
def loadEd25519? (der : Bytes) : Option SigningKey := do
  let envelope ← openEnvelope .firstAndSecond ed25519Algorithm der
  let seed ← Der.all (Der.tagged Der.octetString) envelope.key
  if seed.length ≠ 32 then none
  let publicKey := Edwards.publicKey seed
  if envelope.publicKey.all (· = publicKey) then some (ed25519 publicKey) else none

/-! ## Loading -/

/-- Loads an RSA key from its envelope. -/
def loadEnvelopedRsa? (der : Bytes) : Option SigningKey := do
  let envelope ← openEnvelope .first rsaAlgorithm der
  loadRsa? envelope.key

/-- Loads the key of a section: as RSA, on a curve, or for Ed25519, in this order. -/
def load? (s : PemSection) : Option SigningKey :=
  match s.kind with
  | .rsaKey => loadRsa? s.content
  | .ecKey => loadCurves? fun identifier => envelop identifier s.content
  | .key =>
    ((loadEnvelopedRsa? s.content).or (loadCurves? fun _ => s.content)).or (loadEd25519? s.content)
  | .certificate | .other => none

/-- What is said of a key that cannot be loaded. -/
def refusal : String := "unexpected error: failed to parse private key as RSA, ECDSA, or EdDSA"

end SigningKey
end CertRotation
