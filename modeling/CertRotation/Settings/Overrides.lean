import CertRotation.Rotation.Settings
import CertRotation.Text.Literal
import CertRotation.Text.Quoted

/-!
# Overrides from the environment

Settings can be overridden by variables whose names begin in the same way.  A variable that is empty
counts as one that is not set, and so does, where a number or a truth value is wanted, one that
cannot be read as such.
-/

set_option autoImplicit false

namespace CertRotation

/-- Variables, and how the names of those that matter begin. -/
structure Overrides where
  stem : List Char
  lookup : List Char → Option (List Char)

namespace Overrides

/-- Overrides from a list of variables, of which the last one of a name counts. -/
def ofList (stem : List Char) (vars : List (List Char × List Char)) : Overrides :=
  ⟨stem, fun name => List.lookup name vars.reverse⟩

/-- Overrides from the environment of the program; a value that is no text does not count. -/
def ofEnvironment (stem : List Char) (vars : List (List Char × Bytes)) : Overrides :=
  ⟨stem, fun name => (List.lookup name vars.reverse).bind Utf8.decode?⟩

/-- The full name of a variable. -/
def key (o : Overrides) (name : List Char) : List Char := o.stem ++ name

/-- The value of a variable, if it is not empty. -/
def text? (o : Overrides) (name : List Char) : Option (List Char) :=
  (o.lookup (o.key name)).filter (· ≠ [])

/-- The value of a variable as a path. -/
def path? (o : Overrides) (name : List Char) : Option Path :=
  (o.text? name).map fun text => ⟨Utf8.encode text⟩

/-- The value of a variable, if it can be read. -/
def parse? {α : Type} (o : Overrides) (read : List Char → Option α) (name : List Char) : Option α :=
  (o.text? name).bind read

/-- The overrides as a value. -/
def described (o : Overrides) : String :=
  "EnvOverrides \x7b prefix: " ++ Text.quote o.stem ++ ", .. \x7d"

end Overrides

namespace RotationSettings

/-- How the variables begin that override the settings of a rotation. -/
def variableStem : List Char := "SDK_MTLS_".toList

/-- The settings with what the variables say. -/
def override (s : RotationSettings) (o : Overrides) : RotationSettings :=
  { s with
    certDir := (o.path? "CERT_DIR".toList).getD s.certDir
    certFile := (o.text? "CERT_FILE".toList).getD s.certFile
    keyFile := (o.text? "KEY_FILE".toList).getD s.keyFile
    caFile := (o.text? "CA_FILE".toList).getD s.caFile
    subfolders := (o.parse? Text.flag? "WATCH_SUBFOLDERS".toList).getD s.subfolders }

/-- The usual settings with what the environment says. -/
def ofEnvironment (vars : List (List Char × Bytes)) : RotationSettings :=
  usual.override (.ofEnvironment variableStem vars)

end RotationSettings
end CertRotation
