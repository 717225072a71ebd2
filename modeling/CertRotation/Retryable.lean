/-!
# Failures that may pass

A failure is either worth another attempt or not.  Each kind of error in this library says which,
and the retry loop asks for nothing else.
-/

set_option autoImplicit false

namespace CertRotation

/-- Errors that say whether another attempt may succeed. -/
class Retryable (ε : Type) where
  isRetryable : ε → Bool

/-- A failure of the set-up of a program; its caller has to change something first. -/
inductive SetupError where
  | invalidConfig (text : String)
  | logging (text : String)
  deriving DecidableEq

namespace SetupError

/-- The message of a set-up failure. -/
def message : SetupError → String
  | invalidConfig text => "Invalid configuration: " ++ text
  | logging text => "Logging error: " ++ text

end SetupError

instance : Retryable SetupError where
  isRetryable _ := false

end CertRotation
