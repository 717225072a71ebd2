import CertRotation.Disk.Edit

/-!
# A directory to try things in

A `ScratchDir` is a directory of its own for one test, with short ways to put files there.  Names
are taken from the directory; an absolute name leaves it.

Every operation gives the disk it leaves behind, also when it fails.
-/

set_option autoImplicit false

namespace CertRotation

/-- A directory for one test. -/
structure ScratchDir where
  dir : Path
  deriving DecidableEq

namespace ScratchDir

/-- Makes a directory at a free path. -/
def create (disk : Disk) (dir : Path) : Except Fault (ScratchDir × Disk) :=
  (disk.makeDir dir).map fun disk => (⟨dir⟩, disk)

/-- Removes the directory with all that is in it. -/
def discard (disk : Disk) (s : ScratchDir) : Disk :=
  match disk.removeTree s.dir with
  | .ok disk => disk
  | .error _ => disk

/-- The path of a name. -/
def pathOf (s : ScratchDir) (name : Path) : Path := s.dir.join name

/-- The path of the directory without links. -/
def canonical (disk : Disk) (s : ScratchDir) : Except Fault Path := disk.canonical s.dir

/-- Writes a file after the directories above it, and gives its path. -/
def write (disk : Disk) (s : ScratchDir) (name : Path) (data : Bytes) : Except Fault Path × Disk :=
  let (answer, disk) := disk.writeInto (s.pathOf name) data
  (answer.map fun () => s.pathOf name, disk)

/-- What is added to the name of a file that is to be renamed. -/
def stagedSuffix : Bytes := Utf8.ofString ".tmp~"

/-- Writes a file under another name and then gives it its own. -/
def replace (disk : Disk) (s : ScratchDir) (name : Path) (data : Bytes) :
    Except Fault Path × Disk :=
  match s.write disk ⟨name.bytes ++ stagedSuffix⟩ data with
  | (.error fault, disk) => (.error fault, disk)
  | (.ok staged, disk) =>
    match disk.rename staged (s.pathOf name) with
    | .error fault => (.error fault, disk)
    | .ok disk => (.ok (s.pathOf name), disk)

/-- Removes a file. -/
def remove (disk : Disk) (s : ScratchDir) (name : Path) : Except Fault Unit × Disk :=
  match disk.removeFile (s.pathOf name) with
  | .error fault => (.error fault, disk)
  | .ok disk => (.ok (), disk)

/-- Writes some files in order, up to the first that cannot be written. -/
def writeAll (s : ScratchDir) : Disk → List (Path × Bytes) → Except Fault Unit × Disk
  | disk, [] => (.ok (), disk)
  | disk, (name, data) :: rest =>
    match s.write disk name data with
    | (.error fault, disk) => (.error fault, disk)
    | (.ok _, disk) => writeAll s disk rest

/-- Writes a certificate, a key and perhaps a bundle of trust anchors under their usual names. -/
def writeTls (disk : Disk) (s : ScratchDir) (certificate key : Bytes) (ca : Option Bytes) :
    Except Fault Unit × Disk :=
  s.writeAll disk ([(Path.ofString "tls.crt", certificate), (Path.ofString "tls.key", key)]
    ++ (ca.map fun ca => (Path.ofString "ca.crt", ca)).toList)

end ScratchDir
end CertRotation
