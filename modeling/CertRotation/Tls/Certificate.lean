import CertRotation.Tls.Der

/-!
# Certificates

What this library wants to know of a certificate is the public key it is for, and whether it can
serve as a trust anchor.  `Certificate.read` reads the third version of certificates.  A trust
anchor may also be of the first version, which has no field for its version and no extensions.
-/

set_option autoImplicit false

namespace CertRotation

/-- A certificate: the public key of its subject, with its algorithm. -/
structure Certificate where
  subjectKey : Bytes
  deriving DecidableEq

namespace Certificate

/-- Why a certificate cannot be read. -/
inductive Flaw where
  /-- It is not of the third version. -/
  | version
  | malformed
  deriving DecidableEq

/-- Gives up with the flaw `malformed`. -/
def require {α : Type} : Option α → Except Flaw α
  | some a => .ok a
  | none => .error .malformed

/-! ## Extensions -/

/-- An extension: what it is, whether it must be understood, and its value. -/
structure Extension where
  id : Bytes
  critical : Bool
  value : Bytes

/-- Whether an extension is critical; it is not if nothing is said. -/
def readCritical : Der.Reader Bool := fun bytes =>
  if Der.nextIs Der.boolean bytes then
    match Der.tagged Der.boolean bytes with
    | some ([0xff], rest) => some (true, rest)
    | some ([0x00], rest) => some (false, rest)
    | _ => none
  else some (false, bytes)

/-- The content of an extension. -/
def readExtension : Der.Reader Extension := fun bytes => do
  let (id, bytes) ← Der.tagged Der.identifier bytes
  let (critical, bytes) ← readCritical bytes
  let (value, bytes) ← Der.tagged Der.octetString bytes
  some (⟨id, critical, value⟩, bytes)

/-- The number of the standard extension for the use of the key, whose value is read when it is
used. -/
def keyUsage : UInt8 := 15

/-- The numbers of the standard extensions that are understood: the uses of the key, other names,
constraints, other constraints on names, places of revocation lists and further uses. -/
def understood : List UInt8 := [keyUsage, 17, 19, 30, 31, 37]

/-- The number of a standard extension. -/
def standardNumber? : Bytes → Option UInt8
  | [0x55, 0x1d, n] => some n
  | _ => none

/-- Checks an extension after the standard ones in `seen`.  One that is not understood must not be
critical; one that is must come once, and its value must be what it should be. -/
def checkExtension (seen : List UInt8) (e : Extension) : Option (List UInt8) :=
  match (standardNumber? e.id).filter (· ∈ understood) with
  | none => if e.critical then none else some seen
  | some n =>
    if n ∈ seen then none
    else if n = keyUsage then some (n :: seen)
    else (Der.all (Der.tagged Der.sequence) e.value).map fun _ => n :: seen

/-- Checks some extensions in order, at most `count`. -/
def checkExtensions : Nat → List UInt8 → Bytes → Option Unit
  | _, _, [] => some ()
  | 0, _, _ => none
  | count + 1, seen, bytes => do
    let (e, bytes) ← Der.nested Der.sequence readExtension bytes
    let seen ← checkExtension seen e
    checkExtensions count seen bytes

/-- Checks the extensions of a certificate, if it has any. -/
def checkTail (bytes : Bytes) : Option Unit :=
  if bytes.isEmpty then some ()
  else do
    let tail ← Der.all (Der.tagged (Der.numbered 3)) bytes
    let extensions ← Der.all (Der.tagged Der.sequence) tail
    checkExtensions extensions.length [] extensions

/-! ## The third version -/

/-- The signed part of a certificate, the algorithm of its signature, and the signature. -/
def readSigned : Der.Reader (Bytes × Bytes) := fun bytes => do
  let (signed, bytes) ← Der.tagged Der.sequence bytes
  let (algorithm, bytes) ← Der.tagged Der.sequence bytes
  let (_, bytes) ← Der.wholeBits bytes
  some ((signed, algorithm), bytes)

/-- Reads the field for the version, which must say three, counted from zero. -/
def readVersion (bytes : Bytes) : Except Flaw Bytes :=
  match Der.tagged (Der.numbered 0) bytes with
  | none => .error .version
  | some (content, rest) =>
    match Der.small content with
    | none => .error .malformed
    | some (version, extra) => if version = 2 ∧ extra = [] then .ok rest else .error .version

/-- Reads the signed part after the version. -/
def readFields (algorithm : Bytes) (bytes : Bytes) : Option Certificate := do
  let (_, bytes) ← Der.tagged Der.integer bytes
  let (signature, bytes) ← Der.tagged Der.sequence bytes
  if signature ≠ algorithm then none
  let (_, bytes) ← Der.tagged Der.sequence bytes
  let (_, bytes) ← Der.tagged Der.sequence bytes
  let (_, bytes) ← Der.tagged Der.sequence bytes
  let (key, bytes) ← Der.tagged Der.sequence bytes
  checkTail bytes
  some ⟨Der.write Der.sequence key⟩

/-- The longest certificate that is read, in bytes. -/
def maxLength : Nat := 65538

/-- Reads a certificate of the third version. -/
def read (der : Bytes) : Except Flaw Certificate := do
  if maxLength < der.length then .error .malformed
  let (signed, algorithm) ← require (Der.all (Der.nested Der.sequence readSigned) der)
  let bytes ← readVersion signed
  require (readFields algorithm bytes)

/-! ## Trust anchors -/

/-- Reads the signed part of a certificate of the first version. -/
def readFirstVersion : Der.Reader Unit := fun bytes => do
  let (_, bytes) ← Der.tagged Der.integer bytes
  let (_, bytes) ← Der.tagged Der.sequence bytes
  let (_, bytes) ← Der.tagged Der.sequence bytes
  let (_, bytes) ← Der.tagged Der.sequence bytes
  let (_, bytes) ← Der.tagged Der.sequence bytes
  let (_, bytes) ← Der.tagged Der.sequence bytes
  some ((), bytes)

/-- Whether some bytes are a certificate of the first version. -/
def isFirstVersion (der : Bytes) : Bool :=
  let parts : Der.Reader Unit := fun bytes => do
    let (_, bytes) ← Der.nested Der.sequence readFirstVersion bytes
    let (_, bytes) ← Der.tagged Der.sequence bytes
    let (_, bytes) ← Der.tagged Der.bitString bytes
    some ((), bytes)
  (Der.all (Der.nested Der.sequence parts) der).isSome

/-- Whether a certificate can be a trust anchor. -/
def isTrustAnchor (der : Bytes) : Bool :=
  match read der with
  | .ok _ => true
  | .error .version => isFirstVersion der
  | .error .malformed => false

end Certificate
end CertRotation
