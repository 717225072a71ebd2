import CertRotation.Time

/-!
# The queue of reloads

Only one reload runs at a time.  The others wait and are let in one after the other, in the order in
which they came.  A reload that a change has asked for is scheduled first, and comes to the queue
when it gets its turn.
-/

set_option autoImplicit false

namespace CertRotation

/-- Who asked for a reload: somebody who waits for its end, or a change. -/
inductive Requester where
  | caller
  | change
  deriving DecidableEq

/-- A reload that runs: how many of its attempts have failed, and when the next one comes. -/
structure RunningReload where
  requester : Requester
  failed : Nat
  due : Instant
  deriving DecidableEq

/-- The reloads that are not over. -/
structure ReloadQueue where
  /-- The number of reloads that are scheduled and have not come to the queue yet. -/
  scheduled : Nat
  running : Option RunningReload
  waiting : List Requester
  deriving DecidableEq

namespace ReloadQueue

/-- No reloads. -/
def empty : ReloadQueue := ⟨0, none, []⟩

/-- Whether no reload is under way. -/
def isIdle (q : ReloadQueue) : Bool := q.scheduled = 0 && q.running.isNone && q.waiting.isEmpty

/-- The queue with more reloads scheduled. -/
def schedule (q : ReloadQueue) (count : Nat) : ReloadQueue :=
  { q with scheduled := q.scheduled + count }

/-- A reload comes to the queue.  It runs at once if no other does. -/
def enter (q : ReloadQueue) (now : Instant) (requester : Requester) : ReloadQueue :=
  match q.running with
  | none => { q with running := some ⟨requester, 0, now⟩ }
  | some _ => { q with waiting := q.waiting ++ [requester] }

/-- Lets `count` reloads that changes have asked for come to the queue. -/
def enterChanges (now : Instant) : Nat → ReloadQueue → ReloadQueue
  | 0, q => q
  | count + 1, q => enterChanges now count (q.enter now .change)

/-- The scheduled reloads come to the queue. -/
def enterScheduled (q : ReloadQueue) (now : Instant) : ReloadQueue :=
  enterChanges now q.scheduled { q with scheduled := 0 }

/-- The running reload is over, and the next one is let in. -/
def leave (q : ReloadQueue) (now : Instant) : ReloadQueue :=
  match q.waiting with
  | [] => { q with running := none }
  | requester :: rest => { q with running := some ⟨requester, 0, now⟩, waiting := rest }

/-- The running reload pauses after a failed attempt. -/
def pause (q : ReloadQueue) (due : Instant) : ReloadQueue :=
  { q with
    running := q.running.map fun reload => { reload with failed := reload.failed + 1, due := due } }

/-- The most attempts that the reloads in the queue can still make. -/
def attemptsLeft (q : ReloadQueue) (maxRetries : Nat) : Nat :=
  (match q.running with
    | none => 0
    | some reload => maxRetries + 1 - reload.failed) + q.waiting.length * (maxRetries + 1)

/-- Whether the reload that runs was asked for by `requester` and its next attempt is due. -/
def isDue (q : ReloadQueue) (now : Instant) (requester : Requester) : Bool :=
  q.running.any fun reload => reload.requester = requester && reload.due ≤ now

end ReloadQueue
end CertRotation
