import CertRotation.Disk.Basic

/-!
# Changing the disk

The operations that write, each a function from disks to disks with the fault it may end in.  They
keep a disk well formed: an entry is only put where its parent is a directory, and a directory
leaves together with all that is below it.
-/

set_option autoImplicit false

namespace CertRotation.Disk

/-- The disk with `entry` at `place`, at the end of the listing if the place was free. -/
def put (disk : Disk) (place : Location) (entry : Entry) : Disk :=
  if disk.entries.any (·.1 = place) then
    { disk with entries := disk.entries.map fun e => if e.1 = place then (place, entry) else e }
  else { disk with entries := disk.entries ++ [(place, entry)] }

/-- The disk without `place` and all below it. -/
def cut (disk : Disk) (place : Location) : Disk :=
  { disk with entries := disk.entries.filter fun e => !place.isPrefixOf e.1 }

/-- The disk with what is at `source` and below moved to `target`. -/
def relocate (disk : Disk) (source target : Location) : Disk :=
  { disk with entries := disk.entries.map fun e =>
      if source.isPrefixOf e.1 then (target ++ e.1.drop source.length, e.2) else e }

/-- A path without the separators at its end. -/
def trimSeparators (p : Path) : Path :=
  let kept := (p.bytes.reverse.dropWhile (· = separator)).reverse
  if kept = [] ∧ p.bytes ≠ [] then ⟨[separator]⟩ else ⟨kept⟩

/-- Whether a path ends in a separator, so that only a directory can be meant. -/
def meansDirectory (p : Path) : Bool := p.bytes.getLast? = some separator

/-- Makes `data` the content of a file.  A link is followed, also where it leads to no file yet. -/
def write (disk : Disk) (p : Path) (data : Bytes) : Except Fault Disk := do
  let place ← disk.locate ⟨true, true⟩ (trimSeparators p)
  if disk.isDirAt place ∨ meansDirectory p then .error .isDirectory
  else .ok (disk.put place (.file data))

/-- Makes one directory in a directory. -/
def makeDir (disk : Disk) (p : Path) : Except Fault Disk := do
  let place ← disk.locate ⟨false, true⟩ (trimSeparators p)
  match disk.entry? place with
  | some _ => .error .exists_
  | none => .ok (disk.put place .dir)

/-- Makes the first directory of the list; where its parent is missing, the rest of the list is made
before.  What has been made stays if something fails later. -/
def makeAll (disk : Disk) : List Path → Except Fault Unit × Disk
  | [] => (.error .noEntry, disk)
  | p :: parents =>
    if p.bytes = [] then (.ok (), disk)
    else
      match disk.makeDir p with
      | .ok disk => (.ok (), disk)
      | .error fault =>
        if fault = .noEntry then
          match makeAll disk parents with
          | (.error fault, disk) => (.error fault, disk)
          | (.ok (), disk) =>
            match disk.makeDir p with
            | .ok disk => (.ok (), disk)
            | .error fault => (if disk.isDir p then .ok () else .error fault, disk)
        else (if disk.isDir p then .ok () else .error fault, disk)

/-- Makes a directory together with the directories above it that are missing. -/
def makeDirs (disk : Disk) (p : Path) : Except Fault Unit × Disk := disk.makeAll p.ancestors

/-- Removes a file or a link. -/
def removeFile (disk : Disk) (p : Path) : Except Fault Disk := do
  let place ← disk.locate ⟨false, false⟩ p
  let entry ← disk.entryAt place
  if entry.isDir then .error .isDirectory else .ok (disk.cut place)

/-- Removes a directory with all below it; of a link, only the link. -/
def removeTree (disk : Disk) (p : Path) : Except Fault Disk := do
  let place ← disk.locate ⟨false, false⟩ p
  let _ ← disk.entryAt place
  .ok (disk.cut place)

/-- Gives an entry another path.  A file may replace a file, a directory an empty directory. -/
def rename (disk : Disk) (source target : Path) : Except Fault Disk := do
  let start ← disk.locate ⟨false, false⟩ source
  let entry ← disk.entryAt start
  let last := ((splitNames (trimSeparators target).bytes).getLast?).getD []
  if last = [] ∨ last = dot ∨ last = dotDot then .error .busy
  else
    let place ← disk.locate ⟨false, true⟩ (trimSeparators target)
    if meansDirectory target ∧ !entry.isDir then .error .notDirectory
    else if start = place then .ok disk
    else
      match entry.isDir, (disk.entry? place).map Entry.isDir with
      | false, some true => .error .isDirectory
      | true, some true =>
        if disk.entries.any fun e => place.isPrefixOf e.1 && place ≠ e.1 then .error .notEmpty
        else .ok ((disk.cut place).relocate start place)
      | true, some false => .error .notDirectory
      | _, _ => .ok ((disk.cut place).relocate start place)

/-- Makes a link with the text `target`. -/
def makeLink (disk : Disk) (p : Path) (target : Bytes) : Except Fault Disk := do
  let place ← disk.locate ⟨false, true⟩ (trimSeparators p)
  match disk.entry? place with
  | some _ => .error .exists_
  | none => .ok (disk.put place (.link target))

/-- Makes `data` the content of a file, after the directories above it. -/
def writeInto (disk : Disk) (p : Path) (data : Bytes) : Except Fault Unit × Disk :=
  let made : Except Fault Unit × Disk :=
    match p.parent? with
    | none => (.ok (), disk)
    | some parent => disk.makeDirs parent
  match made with
  | (.error fault, disk) => (.error fault, disk)
  | (.ok (), disk) =>
    match disk.write p data with
    | .error fault => (.error fault, disk)
    | .ok disk => (.ok (), disk)

end CertRotation.Disk
