import CertRotation.Rotation.Directory
import CertRotation.Rotation.Queue
import CertRotation.Rotation.Status
import CertRotation.Watch.Notifier

/-!
# Rotation

A `Rotator` serves the material of a directory of certificates and replaces it when the files have
changed.  A notifier over the directory signals changes, each signal schedules a reload, and a
reload tries again as long as its policy allows.  A reload that fails leaves the old material in
place.

The steps of a rotator are small: a change is pushed (`pushChange`), timers go off (`fireDue`),
scheduled reloads come to the queue (`enterScheduled`), the running reload makes an attempt
(`attempt`).  What order they come in is not decided here.
-/

set_option autoImplicit false

namespace CertRotation

/-- A reload that is over: who had asked for it, how it ended, and how the calls of the subscribers
ended. -/
structure Completion where
  requester : Requester
  outcome : ReloadOutcome
  calls : List CallEnd

/-- Material that is replaced when its files change. -/
structure Rotator (L : Type) where
  directory : CertDirectory
  notifier : Notifier L
  readers : Readers
  policy : RetryPolicy
  queue : ReloadQueue
  current : Option Material
  status : ReloadStatus
  subscribers : List (Callback ReloadOutcome)

namespace Rotator

variable {L : Type}

/-- What the notifier of a rotator is asked to do: it only signals. -/
def notifierConfig (s : RotationSettings) : NotifierConfig :=
  ⟨[s.certDir], s.throttle, s.subfolders, ⟨none, some fun _ => .returned, none⟩⟩

/-- A rotator over a directory that is there already; its notifier watches the directory of the
settings. -/
def fromDirectory (disk : Disk) (directory : CertDirectory) (s : RotationSettings)
    (readers : Readers) (policy : RetryPolicy) (limiter : L) : Except CertError (Rotator L) :=
  match Notifier.new disk (notifierConfig s) limiter with
  | .error e => .error (.watch e)
  | .ok notifier => .ok ⟨directory, notifier, readers, policy, .empty, none, .initial, []⟩

/-- A rotator over the directory of some settings. -/
def new (disk : Disk) (s : RotationSettings) (readers : Readers) (policy : RetryPolicy)
    (limiter : L) : Except CertError (Rotator L) := do
  let directory ← CertDirectory.new disk s
  fromDirectory disk directory s readers policy limiter

/-! ## Looking at it -/

/-- Whether changes are watched for. -/
def isRunning (r : Rotator L) : Bool := r.notifier.isWatching

/-- The chain and key that a handshake would be given now. -/
def served (r : Rotator L) : Option Identity := r.current.bind Material.identity?

/-- A subscriber that hears of every reload from now on. -/
def subscribe (r : Rotator L) (callback : Callback ReloadOutcome) : Rotator L :=
  { r with subscribers := r.subscribers ++ [callback] }

/-! ## Watching -/

/-- Loads the directory and starts to watch it, first for its files and then for signals.  It stops
at the first failure. -/
def watch (disk : Disk) (runtime : Bool) (r : Rotator L) : Except CertError Unit × Rotator L :=
  match r.directory.start disk runtime with
  | (.error e, directory) => (.error e, { r with directory := directory })
  | (.ok (), directory) =>
    let r := { r with directory := directory }
    if r.notifier.isWatching then (.ok (), r)
    else
      let (answer, notifier) := r.notifier.startWatching disk runtime
      (answer.mapError .watch, { r with notifier := notifier })

/-- Stops watching.  The material stays. -/
def stop (r : Rotator L) : Rotator L :=
  { r with notifier := r.notifier.stopWatching, directory := r.directory.stop }

/-- Schedules a reload for every signal; where nothing can run later, signals are lost. -/
def takeSignals (r : Rotator L) (runtime : Bool) (deliveries : List Delivery) : Rotator L :=
  let signals := deliveries.countP fun
    | .signal _ => true
    | _ => false
  if runtime then { r with queue := r.queue.schedule signals } else r

/-- Pushes a change into the notifier. -/
def pushChange [Limiter L] (r : Rotator L) (now : Instant) (runtime : Bool) (change : Change) :
    Rotator L :=
  let (notifier, deliveries) := r.notifier.pushChange now runtime change
  takeSignals { r with notifier := notifier } runtime deliveries

/-- The directory handles a report of the system. -/
def notifyDirectory (disk : Disk) (r : Rotator L) (report : Notification) : Rotator L :=
  { r with directory := r.directory.notified disk report }

/-- The notifier handles a report of the system. -/
def notifyNotifier [Limiter L] (disk : Disk) (now : Instant) (r : Rotator L)
    (report : Notification) : Rotator L :=
  let (notifier, deliveries) := r.notifier.notified disk now report
  takeSignals { r with notifier := notifier } true deliveries

/-- The notifier handles a failure of the notifications. -/
def notifyError [Limiter L] (now : Instant) (r : Rotator L) (e : NotifyError) : Rotator L :=
  let (notifier, deliveries) := r.notifier.notifiedError now e
  takeSignals { r with notifier := notifier } true deliveries

/-- Whether a report of the system reaches anyone. -/
def isListening (r : Rotator L) : Bool := r.directory.isWatching || r.notifier.isWatching

/-- The timers of the notifier go off that are due. -/
def fireDue (now : Instant) (r : Rotator L) : Rotator L :=
  let (notifier, deliveries) := r.notifier.fireDue now
  takeSignals { r with notifier := notifier } true deliveries

/-- The rotator as a value. -/
def described (r : Rotator L) : String :=
  "CertWatcher \x7b status: " ++ r.status.described ++ ", subscribers: "
    ++ toString r.subscribers.length ++ ", notifier: " ++ r.notifier.described ++ ", .. \x7d"

/-! ## Reloading -/

/-- A reload comes to the queue. -/
def enter (r : Rotator L) (now : Instant) (requester : Requester) : Rotator L :=
  { r with queue := r.queue.enter now requester }

/-- The scheduled reloads come to the queue. -/
def enterScheduled (r : Rotator L) (now : Instant) : Rotator L :=
  { r with queue := r.queue.enterScheduled now }

/-- Takes note of how a reload ended and puts new material in place. -/
def record (r : Rotator L) (outcome : ReloadOutcome) : Rotator L :=
  { r with
    status := r.status.record outcome
    current := match outcome with
      | .ok material => some material
      | .error _ => r.current }

/-- Ends the running reload: the outcome is recorded, every subscriber is called, and the next
reload is let in. -/
def complete (r : Rotator L) (now : Instant) (requester : Requester) (outcome : ReloadOutcome) :
    Rotator L × Completion :=
  let r := r.record outcome
  ({ r with queue := r.queue.leave now },
    ⟨requester, outcome, r.subscribers.map fun callback => callback outcome⟩)

/-- The running reload makes an attempt.  It is over if the attempt gives material or is not worth
another one. -/
def attempt (disk : Disk) (now : Instant) (r : Rotator L) : Rotator L × Option Completion :=
  match r.queue.running with
  | none => (r, none)
  | some reload =>
    let (outcome, directory) := r.directory.assemble r.readers disk
    let r := { r with directory := directory }
    match outcome with
    | .error e =>
      if r.policy.shouldRetry e reload.failed then
        let due := Instant.deadline now (r.policy.delay reload.failed)
        ({ r with queue := r.queue.pause due }, none)
      else
        let (r, done) := r.complete now reload.requester outcome
        (r, some done)
    | .ok _ =>
      let (r, done) := r.complete now reload.requester outcome
      (r, some done)

end Rotator
end CertRotation
