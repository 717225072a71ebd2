import CertRotation.Path

/-!
# Keys

The key under which a file is kept is computed from its path, in one of four ways:

* the whole path,
* the name of the file,
* the name of the file without a given extension,
* the names below the nearest of some roots.

`KeyResolver.key?` gives no key where the way chosen has none: a name that is no text, a file with
another extension, a path that lies below no root.
-/

set_option autoImplicit false

namespace CertRotation

/-- The name of an entry in a store. -/
abbrev Key := List Char

/-- How a path becomes a key. -/
inductive KeyStrategy where
  | nameNoExtension
  | nameWithExtension
  | pathRelativeToRoot
  | fullPath
  deriving DecidableEq

namespace KeyStrategy

/-- The strategies and the names settings know them by. -/
def named : List (KeyStrategy × String) :=
  [(nameNoExtension, "name_no_extension"), (nameWithExtension, "name_with_extension"),
    (pathRelativeToRoot, "path_relative_to_root"), (fullPath, "full_path")]

/-- The name of a strategy in settings. -/
def settingName : KeyStrategy → String
  | nameNoExtension => "name_no_extension"
  | nameWithExtension => "name_with_extension"
  | pathRelativeToRoot => "path_relative_to_root"
  | fullPath => "full_path"

/-- The strategy as a value. -/
def described : KeyStrategy → String
  | nameNoExtension => "NameNoExtension"
  | nameWithExtension => "NameWithExtension"
  | pathRelativeToRoot => "PathRelativeToRoot"
  | fullPath => "FullPath"

/-- The strategy that settings call `name`. -/
def ofName? (name : String) : Option KeyStrategy :=
  (named.find? (·.2 = name)).map Prod.fst

end KeyStrategy

/-- A strategy with the extension and the roots it may need. -/
structure KeyResolver where
  strategy : KeyStrategy
  extension : Option (List Char)
  roots : List Path
  deriving DecidableEq

/-- `text` without `ending`, if it ends so. -/
def stripEnding? (text ending : List Char) : Option (List Char) :=
  if ending <:+ text then some (text.take (text.length - ending.length)) else none

namespace KeyResolver

/-- An extension with its dot, which may be left out where it is given. -/
def normalizeExtension (extension : List Char) : List Char :=
  if extension.head? = some '.' then extension else '.' :: extension

/-- A resolver for an extension given with or without its dot. -/
def make (strategy : KeyStrategy) (extension : Option (List Char)) (roots : List Path) :
    KeyResolver :=
  ⟨strategy, extension.map normalizeExtension, roots⟩

/-- The name at the end of a path, if it is text. -/
def fileName? (p : Path) : Option (List Char) := p.fileName?.bind Utf8.decode?

/-- The root with the most components among those that `p` starts with, the last of several. -/
def nearestRoot? (roots : List Path) (p : Path) : Option Path :=
  (roots.filter fun root => (p.below? root).isSome).foldl
    (fun best root =>
      match best with
      | none => some root
      | some other =>
        if root.components.length < other.components.length then some other else some root)
    none

/-- The names below the nearest root, a separator before each. -/
def keyBelowRoot? (roots : List Path) (p : Path) : Option Key := do
  let root ← nearestRoot? roots p
  let names := (← p.below? root).filterMap Component.name?
  if names.isEmpty then none else some ('/' :: ['/'].intercalate (names.map Utf8.lossy))

/-- The key of a path. -/
def key? (resolver : KeyResolver) (p : Path) : Option Key :=
  match resolver.strategy with
  | .fullPath => some p.text
  | .nameWithExtension => fileName? p
  | .nameNoExtension => do
    let extension ← resolver.extension
    let stem ← stripEnding? (← fileName? p) extension
    if stem.isEmpty then none else some stem
  | .pathRelativeToRoot => keyBelowRoot? resolver.roots p

end KeyResolver

end CertRotation
