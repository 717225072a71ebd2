import CertRotation.Text.Quoted
import CertRotation.Tls.Base64

/-!
# PEM texts

A PEM text holds sections between a line that begins with `-----BEGIN` and one that begins with
`-----END`.  What lies outside of the sections is not looked at, and neither is the body of a
section whose label is not known.

`Pem.sections` reads a text up to its first fault.  `Pem.certificates` and `Pem.privateKey` pick the
sections they need: all certificates, or the first private key.
-/

set_option autoImplicit false

namespace CertRotation

/-- What a section that is read holds. -/
inductive SectionKind where
  | certificate
  | rsaKey
  | key
  | ecKey
  /-- Anything else that is decoded and then passed over. -/
  | other
  deriving DecidableEq

namespace SectionKind

/-- The labels that are known. -/
def labels : List (String × SectionKind) :=
  [("CERTIFICATE", certificate), ("RSA PRIVATE KEY", rsaKey), ("PRIVATE KEY", key),
    ("EC PRIVATE KEY", ecKey), ("PUBLIC KEY", other), ("X509 CRL", other),
    ("CERTIFICATE REQUEST", other), ("ECHCONFIG", other)]

/-- The kind of the sections with a label. -/
def ofLabel? (label : Bytes) : Option SectionKind :=
  (labels.find? fun known => Utf8.ofString known.1 = label).map Prod.snd

end SectionKind

/-- A section, decoded. -/
structure PemSection where
  kind : SectionKind
  content : Bytes
  deriving DecidableEq

/-- Why a PEM text cannot be read. -/
inductive PemFault where
  /-- A section has no end. -/
  | missingEnd (label : Bytes)
  /-- A line begins like the start of a section and goes on otherwise. -/
  | illegalStart (line : Bytes)
  | base64 (flaw : Base64.Flaw)
  deriving DecidableEq

namespace PemFault

/-- The message of a fault. -/
def message : PemFault → String
  | missingEnd label => "section end " ++ Text.quote (Utf8.lossy label) ++ " missing"
  | illegalStart line => "illegal section start: " ++ Text.quote (Utf8.lossy line)
  | base64 flaw => flaw.message

end PemFault

namespace Pem

/-! ## Lines -/

/-- Whether a byte ends a line. -/
def isLineEnd (b : UInt8) : Bool := b = 10 || b = 13

/-- The lines of a text; each keeps the byte that ends it. -/
def lines : Bytes → List Bytes
  | [] => []
  | b :: rest =>
    if isLineEnd b then [b] :: lines rest
    else
      match lines rest with
      | [] => [[b]]
      | line :: more => (b :: line) :: more

/-- How a line begins that starts a section. -/
def startMark : Bytes := Utf8.ofString "-----BEGIN "

/-- How a line begins that ends the section with a label. -/
def endMark (label : Bytes) : Bytes :=
  Utf8.ofString "-----END " ++ label ++ Utf8.ofString "-----"

/-- The hyphen. -/
def hyphen : UInt8 := 45

/-- Whether a byte may stand among the hyphens at the end of a line: a hyphen, a space or the end of
the line. -/
def isTrailing (b : UInt8) : Bool := b = hyphen || b = 32 || isLineEnd b

/-- The label of a line that starts a section.  Five hyphens must end the line; spaces and the end
of the line are not counted, wherever they stand among them. -/
def label? (line : Bytes) : Option Bytes :=
  let tail := (line.reverse.takeWhile isTrailing).reverse
  if tail.count hyphen = 5 then
    let spaces := tail.takeWhile (· ≠ hyphen)
    some ((line.take (line.length - tail.length + spaces.length)).drop startMark.length)
  else none

/-! ## Sections -/

/-- A section that has begun: its label and the lines of its body, the last one first. -/
structure Open where
  label : Bytes
  body : List Bytes

/-- The section that ends, if its label is known. -/
def Open.close (o : Open) : Except PemFault (Option PemSection) :=
  match SectionKind.ofLabel? o.label with
  | none => .ok none
  | some kind =>
    match Base64.decode o.body.reverse.flatten with
    | .error flaw => .error (.base64 flaw)
    | .ok content => .ok (some ⟨kind, content⟩)

/-- Reads lines.  A section that begins within another takes over what has been collected; the body
of a section whose label is not known is thrown away at its end. -/
def sectionsFrom : Option Open → List Bytes → List PemSection × Option PemFault
  | none, [] => ([], none)
  | some o, [] => ([], some (.missingEnd o.label))
  | state, line :: rest =>
    if startMark.isPrefixOf line then
      match label? line with
      | none => ([], some (.illegalStart line))
      | some label => sectionsFrom (some ⟨label, (state.map Open.body).getD []⟩) rest
    else
      match state with
      | none => sectionsFrom none rest
      | some o =>
        if (endMark o.label).isPrefixOf line then
          match o.close with
          | .error fault => ([], some fault)
          | .ok found =>
            let (more, fault) := sectionsFrom none rest
            (found.toList ++ more, fault)
        else sectionsFrom (some { o with body := line :: o.body }) rest

/-- The sections of a text up to its first fault, and the fault. -/
def sections (text : Bytes) : List PemSection × Option PemFault := sectionsFrom none (lines text)

/-- The certificates of a text, which must have no fault. -/
def certificates (text : Bytes) : Except PemFault (List Bytes) :=
  match sections text with
  | (_, some fault) => .error fault
  | (found, none) =>
    .ok ((found.filter fun s => s.kind = .certificate).map PemSection.content)

/-- Whether a section holds a private key. -/
def isPrivateKey (s : PemSection) : Bool := s.kind = .rsaKey || s.kind = .key || s.kind = .ecKey

/-- The first private key of a text, if there is one before the first fault. -/
def privateKey (text : Bytes) : Except PemFault (Option PemSection) :=
  match sections text with
  | (found, fault) =>
    match found.find? isPrivateKey, fault with
    | some s, _ => .ok (some s)
    | none, some fault => .error fault
    | none, none => .ok none

end Pem
end CertRotation
