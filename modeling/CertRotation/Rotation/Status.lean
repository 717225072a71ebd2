import CertRotation.Tls.Material
import CertRotation.Watch.Callback

/-!
# What became of the reloads

A reload ends with new material or with the failure of its last attempt.  `ReloadStatus` is the
record of all reloads so far.  It dates a reload by its number, so that two reloads never have the
same date.
-/

set_option autoImplicit false

namespace CertRotation

/-- How a reload ended. -/
abbrev ReloadOutcome := Except CertError Material

/-- The record of the reloads. -/
structure ReloadStatus where
  /-- The number of the last reload. -/
  lastAttempt : Option Nat
  /-- The number of the last reload that gave new material. -/
  lastSuccess : Option Nat
  /-- The message of the last reload, if it failed. -/
  lastError : Option String
  reloads : Nat
  failures : Nat
  deriving DecidableEq

namespace ReloadStatus

/-- The record before the first reload. -/
def initial : ReloadStatus := ⟨none, none, none, 0, 0⟩

/-- The number of reloads so far. -/
def completed (s : ReloadStatus) : Nat := s.reloads + s.failures

/-- The record with one more reload. -/
def record (s : ReloadStatus) : ReloadOutcome → ReloadStatus
  | .ok _ => ⟨some s.completed, some s.completed, none, s.reloads + 1, s.failures⟩
  | .error e => ⟨some s.completed, s.lastSuccess, some e.message, s.reloads, s.failures + 1⟩

/-- The record as a value. -/
def described (s : ReloadStatus) : String :=
  "ReloadStatus \x7b last_attempt: " ++ Text.optional (s.lastAttempt.map toString)
    ++ ", last_success: " ++ Text.optional (s.lastSuccess.map toString) ++ ", last_error: "
    ++ Text.optional (s.lastError.map fun message => Text.quote message.toList) ++ ", reloads: "
    ++ toString s.reloads ++ ", failures: " ++ toString s.failures ++ " \x7d"

/-- Whether the last reload gave new material. -/
def lastSucceeded (s : ReloadStatus) : Bool :=
  s.lastAttempt.isSome && s.lastAttempt = s.lastSuccess

end ReloadStatus
end CertRotation
