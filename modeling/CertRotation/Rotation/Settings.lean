import CertRotation.Backoff
import CertRotation.Watch.Key
import CertRotation.Watch.Lane

/-!
# Settings of a rotation

Where the certificates lie, what their files are called, and how changes and failures are handled.
-/

set_option autoImplicit false

namespace CertRotation

/-- The settings for watching a directory of certificates. -/
structure RotationSettings where
  certDir : Path
  certFile : Key
  keyFile : Key
  /-- The name of the bundle of trust anchors; there need not be one. -/
  caFile : Key
  subfolders : Bool
  throttle : Throttle
  backoff : Backoff Float

namespace RotationSettings

/-- The usual names in a directory. -/
def inDirectory (certDir : Path) : RotationSettings where
  certDir := certDir
  certFile := "tls.crt".toList
  keyFile := "tls.key".toList
  caFile := "ca.crt".toList
  subfolders := false
  throttle := .usual
  backoff := .usual

/-- The usual settings. -/
def usual : RotationSettings := inDirectory (Path.ofString "/etc/tls")

end RotationSettings
end CertRotation
