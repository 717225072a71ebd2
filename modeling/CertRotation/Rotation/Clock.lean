import CertRotation.Rotation.Rotator

/-!
# A rotator in time

Time stands still while a rotator does what is due, and then goes on to the next instant at which
something is.  The disk may change on the way, so it is given as a function of time.

`Rotator.settle` does what is due at an instant, `Rotator.sleep` lets time go on to a given instant,
and `Rotator.reload` lets it go on until a reload that somebody waits for is over.
-/

set_option autoImplicit false

namespace CertRotation

namespace Rotator

variable {L : Type}

/-- Makes attempts for `requester` that are due, at most `fuel` of them. -/
def runDue (requester : Requester) (disk : Disk) (now : Instant) :
    Nat → Rotator L → Rotator L × List Completion
  | 0, r => (r, [])
  | fuel + 1, r =>
    if r.queue.isDue now requester then
      let (r, done) := r.attempt disk now
      let (r, more) := runDue requester disk now fuel r
      (r, done.toList ++ more)
    else (r, [])

/-- Makes all attempts for `requester` that are due. -/
def run (requester : Requester) (disk : Disk) (now : Instant) (r : Rotator L) :
    Rotator L × List Completion :=
  r.runDue requester disk now (r.queue.attemptsLeft r.policy.maxRetries)

/-- Does what is due without anybody waiting for it: timers go off, scheduled reloads come to the
queue, and reloads that changes have asked for make their attempts. -/
def settle (disk : Disk) (now : Instant) (r : Rotator L) : Rotator L × List Completion :=
  ((r.fireDue now).enterScheduled now).run .change disk now

/-- A report of the system reaches the directory and then the notifier.  What was due before it is
done before it. -/
def notified [Limiter L] (disk : Disk) (now : Instant) (r : Rotator L) (report : Notification) :
    Rotator L × List Completion :=
  let (r, done) := r.settle disk now
  let (r, more) := ((r.notifyDirectory disk report).notifyNotifier disk now report).settle disk now
  (r, done ++ more)

/-- A failure of the notifications reaches the notifier, in the same way. -/
def notifiedError [Limiter L] (disk : Disk) (now : Instant) (r : Rotator L) (e : NotifyError) :
    Rotator L × List Completion :=
  let (r, done) := r.settle disk now
  let (r, more) := (r.notifyError now e).settle disk now
  (r, done ++ more)

/-- The next instant at which something is due. -/
def nextDue? (r : Rotator L) : Option Instant :=
  ([r.notifier.nextDue?, r.queue.running.map RunningReload.due].filterMap id).min?

/-- Lets time go on to `limit`, in at most `fuel` steps. -/
def sleepWithin (diskAt : Instant → Disk) (limit : Instant) :
    Nat → Instant → Rotator L → Rotator L × List Completion
  | 0, _, r => r.settle (diskAt limit) limit
  | fuel + 1, now, r =>
    let (r, done) := r.settle (diskAt now) now
    match r.nextDue? with
    | none => (r, done)
    | some next =>
      if limit < next then (r, done)
      else
        let (r, more) := sleepWithin diskAt limit fuel next r
        (r, done ++ more)

/-- Lets time go on from `now` to `limit` and does everything that is due until then.  What is due
comes at whole milliseconds, so there are at most as many steps as milliseconds. -/
def sleep (diskAt : Instant → Disk) (now limit : Instant) (r : Rotator L) :
    Rotator L × List Completion :=
  sleepWithin diskAt limit (Instant.millis limit - Instant.millis now + 1) now r

/-- Lets time go on until the reload of a caller is over, in at most `fuel` steps.  The caller goes
on before everything else that is due. -/
def awaitWithin (diskAt : Instant → Disk) :
    Nat → Instant → Rotator L → Instant × Rotator L × List Completion
  | 0, now, r => (now, r, [])
  | fuel + 1, now, r =>
    let (r, done) := r.run .caller (diskAt now) now
    if done.any fun c => c.requester = .caller then (now, r, done)
    else
      let (r, more) := r.settle (diskAt now) now
      let next := if r.queue.isDue now .caller then some now else r.nextDue?
      match next with
      | none => (now, r, done ++ more)
      | some next =>
        let (finished, r, rest) := awaitWithin diskAt fuel next r
        (finished, r, done ++ more ++ rest)

/-- A bound for the steps until a caller's reload is over: timers that go off, attempts, and the
instants at which the caller's turn comes. -/
def stepsLeft (r : Rotator L) : Nat :=
  r.notifier.changes.tasks.length + r.notifier.errors.tasks.length
    + 2 * r.queue.attemptsLeft r.policy.maxRetries + 2

/-- Reloads for a caller and gives the instant at which the reload is over. -/
def reload (diskAt : Instant → Disk) (now : Instant) (r : Rotator L) :
    Instant × Rotator L × List Completion :=
  let r := r.enter now .caller
  awaitWithin diskAt r.stepsLeft now r

end Rotator
end CertRotation
