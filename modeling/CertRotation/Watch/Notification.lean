import CertRotation.Disk.Basic
import CertRotation.Watch.Change

/-!
# Notifications of the system

The system reports what it saw as a kind and some paths.  `Notification.changes` turns a report into
changes: reports about reading mean nothing, a report of both ends of a move repeats what was
reported for each end, and a report of one end that does not say which is decided by looking whether
something stands at the path now.
-/

set_option autoImplicit false

namespace CertRotation

/-- Which end of a move a report is about. -/
inductive MoveEnd where
  | unsaid
  | origin
  | destination
  | both
  | other
  deriving DecidableEq

/-- What a report is about. -/
inductive NotificationKind where
  | unsaid
  | access
  | create
  | content
  | attributes
  | move (which : MoveEnd)
  | remove
  | other
  deriving DecidableEq

/-- A report of the system. -/
structure Notification where
  kind : NotificationKind
  paths : List Path
  deriving DecidableEq

namespace Notification

/-- The kind of change that a path of the report underwent, if the report means one. -/
def op? (disk : Disk) (kind : NotificationKind) (p : Path) : Option Ops :=
  match kind with
  | .create => some .create
  | .remove => some .remove
  | .attributes => some .attributes
  | .content => some .write
  | .move .origin => some .rename
  | .move .destination => some .create
  | .move .both => none
  | .move .unsaid | .move .other => some (if disk.occupied p then .create else .rename)
  | .access | .unsaid | .other => none

/-- The changes that a report means, in the order of its paths. -/
def changes (disk : Disk) (report : Notification) : List Change :=
  report.paths.filterMap fun p => (op? disk report.kind p).map fun op => ⟨p, op⟩

end Notification

end CertRotation
