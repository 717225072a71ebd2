import CertRotation.Disk.Fault
import CertRotation.Path
import CertRotation.Retryable

/-!
# What goes wrong while watching

`NotifyError` is a failure of the system's notifications, `WatchError` any failure of a watcher, a
notifier or a loader.  A failure is of the configuration if the caller has to change what it asked
for, and worth another attempt if it came from the disk or from the notifications.
-/

set_option autoImplicit false

namespace CertRotation

/-- What failed in the notifications of the system. -/
inductive NotifyFailure where
  | other (text : String)
  | pathNotFound
  | watchNotFound
  | watchLimit
  | fault (fault : Fault)
  deriving DecidableEq

/-- A failure of the notifications and the paths it is about. -/
structure NotifyError where
  failure : NotifyFailure
  paths : List Path
  deriving DecidableEq

namespace NotifyError

/-- The message without the paths. -/
def failureText : NotifyFailure → String
  | .other text => text
  | .pathNotFound => "No path was found."
  | .watchNotFound => "No watch was found."
  | .watchLimit => "OS file watch limit reached."
  | .fault fault => fault.message

/-- The message of a failure. -/
def message (e : NotifyError) : String :=
  if e.paths.isEmpty then failureText e.failure
  else failureText e.failure ++ " about " ++ Text.bracket (e.paths.map Path.quoted)

end NotifyError

/-- A failure of a watcher, a notifier or a loader. -/
inductive WatchError where
  | pathDoesNotExist (p : Path)
  | pathResolution (p : Path) (fault : Fault)
  | alreadyStarted
  | noPathsConfigured
  | noPathsSpecified
  | emptyExtension
  | storageNotSpecified
  | invalidPattern (pattern : List Char)
  | initialScan (root : Path) (fault : Fault)
  | noRuntime
  | notify (e : NotifyError)
  deriving DecidableEq

namespace WatchError

/-- The message of a failure. -/
def message : WatchError → String
  | pathDoesNotExist p => "path does not exist: " ++ p.shown
  | pathResolution p fault => "cannot resolve path " ++ p.shown ++ ": " ++ fault.message
  | alreadyStarted => "watcher already started"
  | noPathsConfigured => "no paths configured"
  | noPathsSpecified => "no paths specified"
  | emptyExtension => "extension must not be empty"
  | storageNotSpecified => "storage not specified"
  | invalidPattern pattern => "invalid atomic marker pattern: " ++ String.ofList pattern
  | initialScan root fault =>
    "initial scan of " ++ root.shown ++ " failed: IO error for operation on " ++ root.shown ++ ": "
      ++ fault.message
  | noRuntime => "no tokio runtime available"
  | notify e => "notify error: " ++ e.message

/-- Whether the caller has to change what it asked for. -/
def isConfig : WatchError → Bool
  | pathDoesNotExist _ | alreadyStarted | noPathsConfigured | noPathsSpecified | emptyExtension
  | storageNotSpecified | invalidPattern _ => true
  | pathResolution .. | initialScan .. | noRuntime | notify _ => false

end WatchError

instance : Retryable WatchError where
  isRetryable
    | .initialScan .. | .notify _ => true
    | _ => false

end CertRotation
