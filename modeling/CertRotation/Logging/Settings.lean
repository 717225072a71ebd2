/-!
# Settings of the log

What the program is called, which lines its log keeps, and in which form.
-/

set_option autoImplicit false

namespace CertRotation

/-- The settings of the log. -/
structure LogSettings where
  serviceName : List Char
  /-- The directives that say which lines are kept. -/
  level : List Char
  json : Bool
  deriving DecidableEq

namespace LogSettings

/-- The usual settings. -/
def usual : LogSettings := ⟨"rust-service".toList, "info".toList, false⟩

end LogSettings
end CertRotation
