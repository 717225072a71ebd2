import CertRotation.Watch.Error
import CertRotation.Watch.Key

/-!
# What goes wrong with certificates

A failure while material is put together names the file it comes from.  Files may be caught in the
middle of a rotation, so whatever follows from their content is worth another attempt.
-/

set_option autoImplicit false

namespace CertRotation

/-- A failure while material is put together or loaded again. -/
inductive CertError where
  /-- The store does not hold a file that is needed. -/
  | noValue (file : Key)
  | certificateParse (file : Key) (reason : String)
  | privateKeyParse (file : Key) (reason : String)
  /-- The private key does not belong to the certificate. -/
  | keyMismatch
  | caBundle (file : Key) (reason : String)
  | configuration (text : String)
  | watch (e : WatchError)
  deriving DecidableEq

namespace CertError

/-- The message of a failure. -/
def message : CertError → String
  | noValue file => "no value found for " ++ String.ofList file
  | certificateParse file reason =>
    "failed to parse certificate " ++ String.ofList file ++ ": " ++ reason
  | privateKeyParse file reason =>
    "failed to parse private key " ++ String.ofList file ++ ": " ++ reason
  | keyMismatch => "private key does not match certificate"
  | caBundle file reason => "invalid CA bundle " ++ String.ofList file ++ ": " ++ reason
  | configuration text => "TLS configuration error: " ++ text
  | watch e => e.message

end CertError

instance : Retryable CertError where
  isRetryable
    | .configuration _ => false
    | .watch e => Retryable.isRetryable e
    | _ => true

end CertRotation
