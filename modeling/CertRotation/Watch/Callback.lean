/-!
# Calling the code of others

A callback belongs to the user of the library and may panic.  A guarded call takes note of the panic
and goes on: what it passes to the caller is whether the callback returned, and a line for the log
if it did not.
-/

set_option autoImplicit false

namespace CertRotation

/-- What a panic carries: a text, or a value that is none. -/
inductive Panic where
  | text (message : List Char)
  | value
  deriving DecidableEq

namespace Panic

/-- The text of a panic in the log. -/
def message : Panic → List Char
  | text message => message
  | value => "<non-string panic payload>".toList

end Panic

/-- How a call of a callback ended. -/
inductive CallEnd where
  | returned
  | panicked (payload : Panic)
  deriving DecidableEq

/-- A callback: how its call ends on a given value.  Whatever else it does is its own affair. -/
abbrev Callback (α : Type) := α → CallEnd

/-- The line that the log gets for a callback that panicked. -/
structure PanicRecord where
  level : String
  callback : List Char
  panic : List Char
  deriving DecidableEq

/-- Whether a guarded call returned, and what it logs. -/
def guarded (name : List Char) : CallEnd → Bool × List PanicRecord
  | .returned => (true, [])
  | .panicked payload => (false, [⟨"ERROR", name, payload.message⟩])

end CertRotation
