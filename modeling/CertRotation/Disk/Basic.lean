import CertRotation.Disk.Fault
import CertRotation.Path

/-!
# The disk

A disk is a list of entries, each at its location: the list of names that leads to it from the top
of the tree.  The order of the entries is the order in which directories are listed.

The system finds a path by walking its names from the top, or from the working directory, and
following links on the way.  `Disk.walkNames` goes as far as no link is met, and `Disk.follow` goes
on from the target of each link until the allowance of links is used up; both descend on their data,
so a loop of links ends in a fault and not in an endless search.

* `Disk.locate` is where a path leads, `Disk.stat` and `Disk.linkStat` what is found there;
* `Disk.canonical` is the path of that place without links and dots;
* `Disk.read` is the content of a file.
-/

set_option autoImplicit false

namespace CertRotation

/-- The names that lead from the top of the tree to an entry. -/
abbrev Location := List Bytes

/-- What stands at a location.  A sealed file and a closed directory are there for everyone to see,
but reading the file ends in its fault, and so does listing the directory or looking up a name in
it. -/
inductive Entry where
  | dir
  | closed (fault : Fault)
  | file (content : Bytes)
  | sealed (fault : Fault)
  | link (target : Bytes)
  deriving DecidableEq

namespace Entry

/-- Whether the entry is a directory. -/
def isDir : Entry → Bool
  | dir | closed _ => true
  | _ => false

/-- Why the directory cannot be entered. -/
def closedBy? : Entry → Option Fault
  | closed fault => some fault
  | _ => none

end Entry

/-- A tree of entries and the directory in which relative paths start. -/
structure Disk where
  entries : List (Location × Entry)
  working : Location

namespace Disk

/-- The longest name of an entry, in bytes. -/
def maxName : Nat := 255

/-- The longest path the system takes, in bytes. -/
def maxPath : Nat := 4095

/-- The number of links that are followed on the way to one entry. -/
def maxLinks : Nat := 40

/-- What stands at a location.  The top of the tree is a directory on every disk. -/
def entry? (disk : Disk) (place : Location) : Option Entry :=
  if place = [] then some .dir else disk.entries.lookup place

/-- The path of a location. -/
def pathOf (place : Location) : Path := ⟨separator :: joinNames place⟩

/-- How a walk treats its last name. -/
structure LastName where
  /-- A link there is followed. -/
  followed : Bool
  /-- Nothing need be there. -/
  optional : Bool

/-- Where a walk stops: at its end, or at a link in the directory `base`, with names still to go. -/
inductive Stop where
  | arrived (place : Location)
  | linked (base : Location) (target : Bytes) (rest : List Bytes)

/-- Whether a directory stands at a location, open or closed. -/
def isDirAt (disk : Disk) (place : Location) : Bool := (disk.entry? place).any Entry.isDir

/-- Why no name can be looked up at a location, if no open directory stands there. -/
def lookupFault (disk : Disk) (place : Location) : Fault :=
  ((disk.entry? place).bind Entry.closedBy?).getD .notDirectory

/-- Walks `names` from `place` up to the first link that has to be followed.  An empty name, which
a separator leaves, stays in any directory.  Any other name has to be looked up, and that can only
be done in an open one; a dot stays there. -/
def walkNames (disk : Disk) (last : LastName) : Location → List Bytes → Except Fault Stop
  | place, [] => .ok (.arrived place)
  | place, name :: rest =>
    if name = [] then
      if disk.isDirAt place then walkNames disk last place rest else .error .notDirectory
    else if disk.entry? place ≠ some .dir then .error (disk.lookupFault place)
    else if name = dot then walkNames disk last place rest
    else if name = dotDot then walkNames disk last place.dropLast rest
    else if maxName < name.length then .error .nameTooLong
    else
      let next := place ++ [name]
      match disk.entry? next with
      | none => if last.optional ∧ rest = [] then .ok (.arrived next) else .error .noEntry
      | some (.link target) =>
        if last.followed ∨ rest ≠ [] then .ok (.linked place target rest) else .ok (.arrived next)
      | some _ => walkNames disk last next rest

/-- Walks `names` from `place` and follows at most `links` links less one. -/
def follow (disk : Disk) (last : LastName) : Nat → Location → List Bytes → Except Fault Location
  | 0, _, _ => .error .tooManyLinks
  | links + 1, place, names =>
    match walkNames disk last place names with
    | .error fault => .error fault
    | .ok (.arrived place) => .ok place
    | .ok (.linked base target rest) =>
      follow disk last links (if (Path.mk target).isAbsolute then [] else base)
        (splitNames target ++ rest)

/-- Where the names of a path lead. -/
def search (disk : Disk) (last : LastName) (p : Path) : Except Fault Location :=
  if 0 ∈ p.bytes then .error .nulByte
  else if p.bytes = [] then .error .noEntry
  else
    follow disk last (maxLinks + 1) (if p.isAbsolute then [] else disk.working) (splitNames p.bytes)

/-- Where a path leads, if the system takes it. -/
def locate (disk : Disk) (last : LastName) (p : Path) : Except Fault Location :=
  if 0 ∈ p.bytes then .error .nulByte
  else if maxPath < p.bytes.length then .error .nameTooLong
  else disk.search last p

/-- The entry at a location that a walk has reached. -/
def entryAt (disk : Disk) (place : Location) : Except Fault Entry :=
  match disk.entry? place with
  | some entry => .ok entry
  | none => .error .noEntry

/-- What a path leads to when links are followed to the end. -/
def stat (disk : Disk) (p : Path) : Except Fault Entry :=
  disk.locate ⟨true, false⟩ p >>= disk.entryAt

/-- What stands at a path, which may be a link. -/
def linkStat (disk : Disk) (p : Path) : Except Fault Entry :=
  disk.locate ⟨false, false⟩ p >>= disk.entryAt

/-- Whether something stands at `p`, a link that leads nowhere included. -/
def occupied (disk : Disk) (p : Path) : Bool :=
  match disk.linkStat p with
  | .ok _ => true
  | .error _ => false

/-- Whether a path leads to a directory. -/
def isDir (disk : Disk) (p : Path) : Bool :=
  match disk.stat p with
  | .ok entry => entry.isDir
  | .error _ => false

/-- The absolute path of the place a path leads to, without links and dots.  The names are walked
one at a time, so only the result has to be a path that the system takes. -/
def canonical (disk : Disk) (p : Path) : Except Fault Path := do
  let place ← disk.search ⟨true, false⟩ p
  let result := pathOf place
  if maxPath < result.bytes.length then .error .nameTooLong else .ok result

/-- The content of the file that a path leads to. -/
def read (disk : Disk) (p : Path) : Except Fault Bytes :=
  match disk.stat p with
  | .ok (.file content) => .ok content
  | .ok (.sealed fault) => .error fault
  | .ok _ => .error .isDirectory
  | .error fault => .error fault

end Disk

end CertRotation
