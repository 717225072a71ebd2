import CertRotation.Watch.Bucket

/-!
# Lanes

A lane collects what is to be delivered together.  It has a limiter, which may allow a delivery at
once, and a timer that is set anew with every item, so that a delivery comes at the latest when the
items have ceased for a while.

Setting the timer anew makes a new task and aborts the one before.  Each task carries the generation
of the lane at its making; a task whose generation has passed does nothing when it goes off.
-/

set_option autoImplicit false

namespace CertRotation

/-- How often deliveries may come: the quiet time before a delivery, which is also the time in which
the limiter earns a token, and the number of tokens. -/
structure Throttle where
  interval : Duration
  burst : Nat
  deriving DecidableEq

namespace Throttle

/-- Half a second, and one token. -/
def usual : Throttle := ⟨Duration.ofMillis 500, 1⟩

/-- The settings as a value. -/
def described (t : Throttle) : String :=
  "ThrottleConfig \x7b interval: " ++ Duration.shown t.interval ++ ", burst: " ++ toString t.burst
    ++ " \x7d"

end Throttle

/-- A timer that has been set and has neither gone off nor been aborted. -/
structure TimerTask where
  generation : Nat
  due : Instant
  deriving DecidableEq

/-- Items to deliver together, a limiter of type `L` and the timers. -/
structure Lane (L α : Type) where
  pending : α
  limiter : L
  generation : Nat
  /-- The generation of the task that was made last, finished or not. -/
  latest : Option Nat
  /-- The tasks that live. -/
  tasks : List TimerTask

namespace Lane

variable {L α : Type}

/-- A lane without timers. -/
def new (pending : α) (limiter : L) : Lane L α := ⟨pending, limiter, 0, none, []⟩

/-- A new generation: the task that was made last is aborted. -/
def disarm (lane : Lane L α) : Lane L α :=
  { lane with
    generation := lane.generation + 1
    latest := none
    tasks := lane.tasks.filter fun task => lane.latest ≠ some task.generation }

/-- Sets the timer anew. -/
def arm (lane : Lane L α) (now : Instant) (delay : Duration) : Lane L α :=
  let lane := lane.disarm
  { lane with
    latest := some lane.generation
    tasks := lane.tasks ++ [⟨lane.generation, Instant.deadline now delay⟩] }

/-- Asks the limiter for a delivery at once. -/
def acquire [Limiter L] (lane : Lane L α) (now : Instant) : Bool × Lane L α :=
  let (granted, limiter) := Limiter.acquire lane.limiter now
  (granted, { lane with limiter := limiter })

/-- The lane after `task` has gone off. -/
def finish (lane : Lane L α) (task : TimerTask) : Lane L α :=
  { lane with tasks := lane.tasks.filter (· ≠ task) }

/-- Whether a task that goes off has to deliver. -/
def isCurrent (lane : Lane L α) (task : TimerTask) : Bool := task.generation = lane.generation

/-- The first instant at which a task goes off. -/
def nextDue? (lane : Lane L α) : Option Instant := (lane.tasks.map TimerTask.due).min?

end Lane

end CertRotation
