import CertRotation.Disk.Walk
import CertRotation.Watch.Callback
import CertRotation.Watch.Error
import CertRotation.Watch.Notification

/-!
# Watching paths

A `PathWatcher` has roots, which are added while it is not running, and while it runs a set of
watched paths: the roots and, if it watches subfolders, every directory below them.  A directory
that appears while it runs is absorbed into the set and not reported.

What the watcher does to the world is a list of effects, in order: the watches it asks the system
for and the calls of its callbacks.  `PathWatcher.dispatch` handles one report of the system,
`PathWatcher.notified` does so only if the watcher runs.
-/

set_option autoImplicit false

namespace CertRotation

/-- Something a watcher did. -/
inductive WatchEffect where
  /-- The system was asked to watch a path. -/
  | watch (p : Path) (failure : Option NotifyError)
  /-- The callback for changes was called. -/
  | change (change : Change) (call : CallEnd)
  /-- The callback for errors was called. -/
  | error (e : WatchError) (call : CallEnd)

namespace WatchEffect

/-- The change that was handed to the callback. -/
def change? : WatchEffect → Option Change
  | change c _ => some c
  | _ => none

/-- The error that was handed to the callback. -/
def error? : WatchEffect → Option WatchError
  | error e _ => some e
  | _ => none

end WatchEffect

/-- Watches a set of paths and hands what happens to them to callbacks. -/
structure PathWatcher where
  roots : List Path
  /-- The watched paths in ascending order; the roots when not running. -/
  watched : List Path
  subfolders : Bool
  onChange : Option (Callback Change)
  onError : Option (Callback WatchError)
  running : Bool

/-- The absolute path of a place that exists. -/
def resolvePath (disk : Disk) (p : Path) : Except WatchError Path :=
  match disk.canonical p with
  | .ok resolved => .ok resolved
  | .error fault =>
    .error (if fault = .noEntry then .pathDoesNotExist p else .pathResolution p fault)

/-- The answer of the system to the request to watch `p`.  A directory is only watched if it can be
listed. -/
def watchFailure? (disk : Disk) (p : Path) : Option NotifyError :=
  match disk.stat p with
  | .ok entry => entry.closedBy?.map fun fault => ⟨.fault fault, [p]⟩
  | .error fault => some ⟨if fault = .noEntry then .pathNotFound else .fault fault, [p]⟩

namespace PathWatcher

/-- A watcher without paths, not running. -/
def new (subfolders : Bool) (onChange : Option (Callback Change))
    (onError : Option (Callback WatchError)) : PathWatcher :=
  ⟨[], [], subfolders, onChange, onError, false⟩

/-- Adds a root and gives its absolute path.  Only a watcher that is not running takes roots. -/
def addPath (disk : Disk) (w : PathWatcher) (p : Path) : Except WatchError (Path × PathWatcher) :=
  if w.running then .error .alreadyStarted
  else do
    let resolved ← resolvePath disk p
    if resolved ∈ w.roots then .ok (resolved, w)
    else
      .ok (resolved,
        { w with roots := w.roots ++ [resolved], watched := resolved.insertSorted w.watched })

/-- Adds roots in order up to the first that cannot be added, and gives their absolute paths. -/
def addPaths (disk : Disk) : PathWatcher → List Path → Except WatchError (List Path × PathWatcher)
  | w, [] => .ok ([], w)
  | w, p :: ps => do
    let (resolved, w) ← w.addPath disk p
    let (rest, w) ← addPaths disk w ps
    .ok (resolved :: rest, w)

/-- Stops watching; the watched paths are the roots again. -/
def close (w : PathWatcher) : PathWatcher :=
  if w.running then { w with running := false, watched := Path.sorted w.roots } else w

/-- The paths to watch: the roots, and the directories below them if asked for. -/
def expand (disk : Disk) (w : PathWatcher) : List Path :=
  let below := if w.subfolders then w.roots.flatMap fun root => disk.directories root false else []
  Path.sorted (w.roots ++ below)

/-- Asks the system to watch paths in order, up to the first failure. -/
def watchAll (disk : Disk) : List Path → List WatchEffect × Option NotifyError
  | [] => ([], none)
  | p :: ps =>
    match watchFailure? disk p with
    | some failure => ([.watch p (some failure)], some failure)
    | none =>
      let (effects, failure) := watchAll disk ps
      (.watch p none :: effects, failure)

/-- Starts watching.  A running watcher is closed first, and stays closed if a path cannot be
watched. -/
def start (disk : Disk) (runtime : Bool) (w : PathWatcher) :
    Except WatchError Unit × PathWatcher × List WatchEffect :=
  if w.roots.isEmpty then (.error .noPathsConfigured, w, [])
  else if !runtime then (.error .noRuntime, w, [])
  else
    let w := w.close
    let paths := w.expand disk
    match watchAll disk paths with
    | (effects, some failure) => (.error (.notify failure), w, effects)
    | (effects, none) => (.ok (), { w with running := true, watched := paths }, effects)

/-- Watches the directories of a list that are not watched yet. -/
def absorbAll (disk : Disk) : PathWatcher → List Path → PathWatcher × List WatchEffect
  | w, [] => (w, [])
  | w, p :: ps =>
    if w.watched.any p.same then absorbAll disk w ps
    else
      let failure := watchFailure? disk p
      let w := if failure.isNone then { w with watched := p.insertSorted w.watched } else w
      let (w, effects) := absorbAll disk w ps
      (w, .watch p failure :: effects)

/-- Watches a directory that appeared, and those below it.  There is nothing to add them to if the
watcher does not run. -/
def absorb (disk : Disk) (w : PathWatcher) (dir : Path) : PathWatcher × List WatchEffect :=
  if w.running then absorbAll disk w (disk.directories dir true) else (w, [])

/-- Handles one change: a new directory is absorbed, anything else is reported. -/
def handle (disk : Disk) (w : PathWatcher) (change : Change) : PathWatcher × List WatchEffect :=
  if w.subfolders ∧ change.op = .create ∧ disk.isDir change.path then w.absorb disk change.path
  else
    (w, match w.onChange with
      | some callback => [.change change (callback change)]
      | none => [])

/-- Handles changes in order. -/
def handleAll (disk : Disk) : PathWatcher → List Change → PathWatcher × List WatchEffect
  | w, [] => (w, [])
  | w, change :: rest =>
    let (w, first) := w.handle disk change
    let (w, effects) := handleAll disk w rest
    (w, first ++ effects)

/-- Handles a report of the system, whether the watcher runs or not. -/
def dispatch (disk : Disk) (w : PathWatcher) (report : Notification) :
    PathWatcher × List WatchEffect :=
  w.handleAll disk (report.changes disk)

/-- Hands a failure of the notifications to the callback for errors. -/
def dispatchError (w : PathWatcher) (e : NotifyError) : List WatchEffect :=
  match w.onError with
  | some callback => [.error (.notify e) (callback (.notify e))]
  | none => []

/-- A report reaches a watcher while it runs. -/
def notified (disk : Disk) (w : PathWatcher) (report : Notification) :
    PathWatcher × List WatchEffect :=
  if w.running then w.dispatch disk report else (w, [])

/-- A failure of the notifications reaches a watcher while it runs. -/
def notifiedError (w : PathWatcher) (e : NotifyError) : List WatchEffect :=
  if w.running then w.dispatchError e else []

/-- The watcher as a value. -/
def described (w : PathWatcher) : String :=
  "PathWatcher \x7b roots: " ++ Text.bracket (w.roots.map Path.quoted) ++ ", subfolders: "
    ++ toString w.subfolders ++ ", started: " ++ toString w.running ++ ", .. \x7d"

end PathWatcher

end CertRotation
