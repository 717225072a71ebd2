import CertRotation.Watch.Lane
import CertRotation.Watch.PathWatcher

/-!
# Batches of changes

A `Notifier` files each change under the root it belongs to and delivers the collected changes in
batches, one call per root; or it only signals that something changed.  Errors travel in a lane of
their own, with their own limiter and timer.

* `Notifier.pushChange` and `Notifier.pushError` take in one item,
* `Notifier.fireDue` lets the timers go off that are due,
* `Notifier.notified` takes in what the notifier's own watcher hands on.

Each gives the calls of the callbacks that it made, in order.
-/

set_option autoImplicit false

namespace CertRotation

/-- The callbacks of a notifier.  If there is one for batches, the one for signals is not called. -/
structure Handlers where
  batch : Option (Callback (Path × List Change))
  change : Option (Callback Unit)
  errors : Option (Callback (List WatchError))

/-- What a notifier is asked to do. -/
structure NotifierConfig where
  paths : List Path
  throttle : Throttle
  subfolders : Bool
  handlers : Handlers

/-- A call of a callback. -/
inductive Delivery where
  | batch (root : Path) (changes : List Change) (call : CallEnd)
  | signal (call : CallEnd)
  | errors (es : List WatchError) (call : CallEnd)

/-- Changes by the root they belong to, in the order of the roots. -/
abbrev PendingChanges := List (Path × List Change)

namespace PendingChanges

/-- The changes with one more under `root`.  A root that is there already keeps its text. -/
def file (root : Path) (change : Change) : PendingChanges → PendingChanges
  | [] => [(root, [change])]
  | (other, changes) :: rest =>
    match root.compare other with
    | .lt => (root, [change]) :: (other, changes) :: rest
    | .eq => (other, changes ++ [change]) :: rest
    | .gt => (other, changes) :: file root change rest

end PendingChanges

/-- Delivers the changes below some roots in batches. -/
structure Notifier (L : Type) where
  roots : List Path
  interval : Duration
  handlers : Handlers
  changes : Lane L PendingChanges
  errors : Lane L (List WatchError)
  watcher : PathWatcher

namespace Notifier

variable {L : Type}

/-- A notifier that does not watch yet, whose lanes start with the given limiter. -/
def new (disk : Disk) (c : NotifierConfig) (limiter : L) : Except WatchError (Notifier L) :=
  if c.paths.isEmpty then .error .noPathsSpecified
  else do
    let watcher := PathWatcher.new c.subfolders (some fun _ => .returned) (some fun _ => .returned)
    let (roots, watcher) ← PathWatcher.addPaths disk watcher c.paths
    .ok ⟨roots, c.throttle.interval, c.handlers, .new [] limiter, .new [] limiter, watcher⟩

/-- Whether the notifier's watcher runs. -/
def isWatching (n : Notifier L) : Bool := n.watcher.running

/-- The path that changes of `p` are filed under: the nearest root at or above it, or else the
directory it is in. -/
def rootFor (n : Notifier L) (p : Path) : Path :=
  match p.ancestors.find? fun q => n.roots.any q.same with
  | some root => root
  | none => p.parent?.getD p

/-- The calls that deliver some changes. -/
def deliver (handlers : Handlers) (pending : PendingChanges) : List Delivery :=
  match handlers.batch, handlers.change with
  | some callback, _ =>
    (pending.filter fun b => !b.2.isEmpty).map fun (root, changes) =>
      .batch root changes (callback (root, changes))
  | none, some callback => [.signal (callback ())]
  | none, none => []

/-- Delivers the changes that are pending, if there are any. -/
def flushChanges (n : Notifier L) : Notifier L × List Delivery :=
  if n.changes.pending.all fun b => b.2.isEmpty then (n, [])
  else
    ({ n with changes := { n.changes with pending := [] } }, deliver n.handlers n.changes.pending)

/-- Delivers the errors that are pending, if there are any.  Without a callback they are lost. -/
def flushErrors (n : Notifier L) : Notifier L × List Delivery :=
  if n.errors.pending.isEmpty then (n, [])
  else
    ({ n with errors := { n.errors with pending := [] } },
      match n.handlers.errors with
      | some callback => [.errors n.errors.pending (callback n.errors.pending)]
      | none => [])

/-- Takes in a change.  Where timers cannot run, the delivery comes at once. -/
def pushChange [Limiter L] (n : Notifier L) (now : Instant) (runtime : Bool) (change : Change) :
    Notifier L × List Delivery :=
  let pending := n.changes.pending.file (n.rootFor change.path) change
  let (granted, lane) := { n.changes with pending := pending }.acquire now
  let n := { n with changes := lane }
  let (n, first) := if granted then n.flushChanges else (n, [])
  if runtime then ({ n with changes := n.changes.arm now n.interval }, first)
  else
    let (n, more) := flushChanges { n with changes := n.changes.disarm }
    (n, first ++ more)

/-- Takes in an error, in the same way. -/
def pushError [Limiter L] (n : Notifier L) (now : Instant) (runtime : Bool) (e : WatchError) :
    Notifier L × List Delivery :=
  let (granted, lane) := { n.errors with pending := n.errors.pending ++ [e] }.acquire now
  let n := { n with errors := lane }
  let (n, first) := if granted then n.flushErrors else (n, [])
  if runtime then ({ n with errors := n.errors.arm now n.interval }, first)
  else
    let (n, more) := flushErrors { n with errors := n.errors.disarm }
    (n, first ++ more)

/-- A timer of the lane of changes goes off. -/
def fireChanges (n : Notifier L) (task : TimerTask) : Notifier L × List Delivery :=
  let current := n.changes.isCurrent task
  let n := { n with changes := n.changes.finish task }
  if current then n.flushChanges else (n, [])

/-- A timer of the lane of errors goes off. -/
def fireErrors (n : Notifier L) (task : TimerTask) : Notifier L × List Delivery :=
  let current := n.errors.isCurrent task
  let n := { n with errors := n.errors.finish task }
  if current then n.flushErrors else (n, [])

/-- Does some steps in order and collects their deliveries. -/
def steps {α : Type} (step : Notifier L → α → Notifier L × List Delivery) :
    Notifier L → List α → Notifier L × List Delivery
  | n, [] => (n, [])
  | n, a :: rest =>
    let (n, first) := step n a
    let (n, more) := steps step n rest
    (n, first ++ more)

/-- Tasks that are due by `now`, the earlier ones first. -/
def dueBy (now : Instant) (tasks : List TimerTask) : List TimerTask :=
  (tasks.filter fun task => task.due ≤ now).mergeSort fun a b => a.due ≤ b.due

/-- Lets the timers go off that are due by `now`: those of the changes and those of the errors,
which do not touch one another. -/
def fireDue (n : Notifier L) (now : Instant) : Notifier L × List Delivery :=
  let (n, first) := steps fireChanges n (dueBy now n.changes.tasks)
  let (n, more) := steps fireErrors n (dueBy now n.errors.tasks)
  (n, first ++ more)

/-- The first instant at which a timer goes off. -/
def nextDue? (n : Notifier L) : Option Instant :=
  ([n.changes.nextDue?, n.errors.nextDue?].filterMap id).min?

/-- Starts the notifier's watcher. -/
def startWatching (disk : Disk) (runtime : Bool) (n : Notifier L) :
    Except WatchError Unit × Notifier L :=
  let (answer, watcher, _) := n.watcher.start disk runtime
  (answer, { n with watcher := watcher })

/-- Stops the notifier's watcher and forgets what is pending. -/
def stopWatching (n : Notifier L) : Notifier L :=
  { n with
    watcher := n.watcher.close
    changes := { n.changes.disarm with pending := [] }
    errors := { n.errors.disarm with pending := [] } }

/-- Takes in what the watcher has handed on. -/
def takeIn [Limiter L] (now : Instant) (runtime : Bool) (n : Notifier L)
    (effects : List WatchEffect) : Notifier L × List Delivery :=
  steps (fun n effect =>
    match effect with
    | .watch .. => (n, [])
    | .change change _ => n.pushChange now runtime change
    | .error e _ => n.pushError now runtime e) n effects

/-- The watcher handles a report of the system, whether it runs or not. -/
def dispatch [Limiter L] (disk : Disk) (now : Instant) (runtime : Bool) (n : Notifier L)
    (report : Notification) : Notifier L × List Delivery :=
  let (watcher, effects) := n.watcher.dispatch disk report
  takeIn now runtime { n with watcher := watcher } effects

/-- The watcher handles a failure of the notifications, whether it runs or not. -/
def dispatchError [Limiter L] (now : Instant) (runtime : Bool) (n : Notifier L) (e : NotifyError) :
    Notifier L × List Delivery :=
  takeIn now runtime n (n.watcher.dispatchError e)

/-- A report of the system reaches the notifier while it watches. -/
def notified [Limiter L] (disk : Disk) (now : Instant) (n : Notifier L) (report : Notification) :
    Notifier L × List Delivery :=
  if n.isWatching then n.dispatch disk now true report else (n, [])

/-- A failure of the notifications reaches the notifier while it watches. -/
def notifiedError [Limiter L] (now : Instant) (n : Notifier L) (e : NotifyError) :
    Notifier L × List Delivery :=
  if n.isWatching then n.dispatchError now true e else (n, [])

/-- The notifier as a value. -/
def described (n : Notifier L) : String :=
  "BatchNotifier \x7b roots: " ++ Text.bracket (n.roots.map Path.quoted) ++ ", interval: "
    ++ Duration.shown n.interval ++ ", watcher: " ++ n.watcher.described ++ ", .. \x7d"

end Notifier

namespace NotifierConfig

/-- The settings as a value. -/
def described (c : NotifierConfig) : String :=
  "NotifierConfig \x7b paths: " ++ Text.bracket (c.paths.map Path.quoted) ++ ", throttle: "
    ++ c.throttle.described ++ ", watch_subfolders: " ++ toString c.subfolders ++ ", on_batch: "
    ++ toString c.handlers.batch.isSome ++ ", on_change: " ++ toString c.handlers.change.isSome
    ++ ", on_errors: " ++ toString c.handlers.errors.isSome ++ " \x7d"

end NotifierConfig

end CertRotation
