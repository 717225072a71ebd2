import CertRotation.Disk.Basic

/-!
# Walking a directory

`Disk.walk` lists everything at and below a path, in the order of the disk's entries.  The path
itself may be a link to a directory, which is then entered; links below it are listed and not
entered.

Not every directory that a walk comes to can be entered: it may be closed, or its path may have
become too long for the system.  Such a directory is listed, and nothing below it is.  If it is the
directory that the walk starts in, the walk ends there with a fault, and what stands at the path has
been listed all the same.
-/

set_option autoImplicit false

namespace CertRotation

/-- An entry that a walk has come to. -/
structure Visit where
  path : Path
  isDir : Bool
  deriving DecidableEq

/-- What a walk has come to, in order, and why it could not enter the directory that it started
in. -/
structure Walk where
  visits : List Visit
  fault? : Option Fault
  deriving DecidableEq

namespace Disk

/-- What lies below the directory at `base`, the names counted from there. -/
def below (disk : Disk) (base : Location) : List (Location × Entry) :=
  disk.entries.filterMap fun (place, entry) =>
    if base <+: place ∧ base ≠ place then some (place.drop base.length, entry) else none

/-- The path of `names` below `p`. -/
def descend (p : Path) (names : Location) : Path := names.foldl Path.child p

/-- Whether the directory at `base` and those on the way down to `names` below it are open, the last
one included. -/
def isOpen (disk : Disk) : Location → Location → Bool
  | base, [] => disk.entry? base = some .dir
  | base, name :: names => disk.entry? base = some .dir && isOpen disk (base ++ [name]) names

/-- The entries below the directory at `base`, which is reached as `p`: those that stand in a
directory that can be entered. -/
def visitsBelow (disk : Disk) (p : Path) (base : Location) : List Visit :=
  (disk.below base).filterMap fun (names, entry) =>
    if disk.isOpen base names.dropLast ∧ (descend p names.dropLast).bytes.length ≤ maxPath then
      some ⟨descend p names, entry.isDir⟩
    else none

/-- The walk that has come to `first` and finds `entry` at `base`, where that leads. -/
def enter (disk : Disk) (first : Visit) (base : Location) (entry : Entry) : Walk :=
  ⟨first :: if entry = .dir then disk.visitsBelow first.path base else [], entry.closedBy?⟩

/-- Everything at and below `p`, or why `p` itself cannot be visited. -/
def walk (disk : Disk) (p : Path) : Except Fault Walk := do
  let stands ← disk.linkStat p
  let base ← disk.locate ⟨true, false⟩ p
  let entry ← disk.entryAt base
  return disk.enter ⟨p, stands.isDir⟩ base entry

/-- The directories at or below `p`, without `p` itself unless `top` asks for it; none if `p` cannot
be visited. -/
def directories (disk : Disk) (p : Path) (top : Bool) : List Path :=
  match disk.walk p with
  | .error _ => []
  | .ok walk =>
    ((if top then walk.visits else walk.visits.drop 1).filter Visit.isDir).map Visit.path

end Disk

end CertRotation
