import Mathlib.Data.List.Induction
import CertRotation.Proofs.Rotation.CatchUp
import CertRotation.Proofs.Watch.Relay

/-!
# Whatever may happen to a rotator

A run of a rotator is any sequence of small steps.  The disk changes, time goes on and timers go
off; changes and reports come in; somebody starts or stops it, asks for a reload or subscribes;
reloads come to the queue, and the one that runs makes its attempts.  Nothing is said about the
order of the steps, and neither about the disk: it may be another one at each step.

* `RotatorEvent`, `RotatorHistory` — the record of a run, at which no step looks;
* `Rotator.Moves` — what a step may do to a rotator;
* `LiveRotator.Step`, `LiveRotator.Runs` — steps and runs, with the events that they add;
* `LiveRotator.Step.moves` — every step is one of the moves;
* `LiveRotator.Runs.of_attempted` — the state in which an attempt of a history was made.
-/

set_option autoImplicit false

namespace CertRotation

/-! ## The record of a run -/

/-- Something that happened to a rotator. -/
inductive RotatorEvent where
  /-- A change came to the notifier. -/
  | pushed (runtime : Bool) (change : Change)
  /-- A reload came to the queue. -/
  | entered (requester : Requester)
  /-- The running reload made an attempt, which had an outcome and may have been its last. -/
  | attempted (reload : RunningReload) (outcome : ReloadOutcome) (done : Option Completion)
  | subscribed (callback : Callback ReloadOutcome)
  /-- A subscriber will answer in another way from now on. -/
  | exchanged (subscriber : Nat) (callback : Callback ReloadOutcome)
  | stopped

namespace RotatorEvent

/-- The reload that is over. -/
def completion? : RotatorEvent → Option Completion
  | attempted _ _ done => done
  | _ => none

/-- Whether a change came in. -/
def isPush : RotatorEvent → Bool
  | pushed .. => true
  | _ => false

/-- The subscribers after the event. -/
def subscribers (before : List (Callback ReloadOutcome)) :
    RotatorEvent → List (Callback ReloadOutcome)
  | subscribed callback => before ++ [callback]
  | exchanged subscriber callback => before.set subscriber callback
  | _ => before

end RotatorEvent

/-- What happened to a rotator, the last event at the end. -/
abbrev RotatorHistory := List RotatorEvent

namespace RotatorHistory

/-- The reloads that are over. -/
def completions (h : RotatorHistory) : List Completion := h.filterMap RotatorEvent.completion?

/-- The subscribers, in the order in which they subscribed, each as it answers at the end. -/
def subscribers (h : RotatorHistory) : List (Callback ReloadOutcome) :=
  h.foldl RotatorEvent.subscribers []

variable {h rest : RotatorHistory} {e : RotatorEvent} {c : Completion}

theorem completions_append : completions (h ++ rest) = h.completions ++ rest.completions :=
  List.filterMap_append ..

theorem completions_eq_nil (hrest : ∀ e ∈ rest, e.completion? = none) : rest.completions = [] :=
  List.filterMap_eq_nil_iff.2 hrest

theorem mem_completions (hc : c ∈ h.completions) :
    ∃ front reload outcome rest, h = front ++ .attempted reload outcome (some c) :: rest := by
  obtain ⟨e, he, hdone⟩ := List.mem_filterMap.1 hc
  obtain ⟨front, rest, rfl⟩ := List.append_of_mem he
  cases e with
  | attempted reload outcome done =>
    obtain rfl : done = some c := hdone
    exact ⟨front, reload, outcome, rest, rfl⟩
  | _ => cases hdone

/-- An event of a history that goes on is of the history so far or comes after it. -/
theorem of_append_eq {es front : RotatorHistory} (heq : h ++ es = front ++ e :: rest) :
    (∃ more, h = front ++ e :: more) ∨ ∃ mid, es = mid ++ e :: rest ∧ front = h ++ mid := by
  rcases List.append_eq_append_iff.1 heq with ⟨mid, hfront, hes⟩ | ⟨more, hh, hrest⟩
  · exact .inr ⟨mid, hes, hfront⟩
  · cases more with
    | nil => exact .inr ⟨[], hrest.symm, by simpa using hh.symm⟩
    | cons e' more =>
      obtain ⟨rfl, -⟩ := List.cons.inj hrest
      exact .inl ⟨more, hh⟩

theorem of_concat_eq {front : RotatorHistory} {last : RotatorEvent}
    (heq : h ++ [last] = front ++ e :: rest) :
    (∃ more, h = front ++ e :: more) ∨ front = h ∧ e = last := by
  rcases of_append_eq heq with hbefore | ⟨mid, hlast, hfront⟩
  · exact .inl hbefore
  · cases mid with
    | nil => exact .inr ⟨by simpa using hfront, (List.cons.inj hlast).1.symm⟩
    | cons first mid =>
      have hlength := congrArg List.length hlast
      simp at hlength

theorem subscribers_concat : subscribers (h ++ [e]) = e.subscribers h.subscribers :=
  List.foldl_append ..

/-- Nobody ever unsubscribes. -/
theorem length_subscribers_le : h.subscribers.length ≤ (subscribers (h ++ rest)).length := by
  induction rest using List.reverseRecOn with
  | nil => exact Nat.le_of_eq (by rw [List.append_nil])
  | append_singleton rest e ih =>
    rw [← List.append_assoc, subscribers_concat]
    refine Nat.le_trans ih ?_
    cases e with
    | subscribed callback =>
      rw [RotatorEvent.subscribers, List.length_append]
      exact Nat.le_add_right _ _
    | exchanged subscriber callback =>
      rw [RotatorEvent.subscribers, List.length_set]
    | _ => exact Nat.le_refl _

end RotatorHistory

/-! ## Steps -/

namespace Rotator

variable {L : Type} {r r' : Rotator L}

/-- A new rotator has a new notifier, and nothing has happened to it. -/
theorem of_fromDirectory {disk : Disk} {directory : CertDirectory} {s : RotationSettings}
    {readers : Readers} {policy : RetryPolicy} {limiter : L}
    (hnew : fromDirectory disk directory s readers policy limiter = .ok r) :
    ∃ notifier, Notifier.new disk (notifierConfig s) limiter = .ok notifier ∧
      r = ⟨directory, notifier, readers, policy, .empty, none, .initial, []⟩ := by
  rw [fromDirectory] at hnew
  split at hnew
  · cases hnew
  · rename_i notifier hnotifier
    exact ⟨notifier, hnotifier, (Except.ok.inj hnew).symm⟩

/-- **An attempt pauses the reload that runs or completes it.** -/
theorem attempt_eq {reload : RunningReload} (hrunning : r.queue.running = some reload)
    (disk : Disk) (now : Instant) :
    (∃ e due, (r.directory.assemble r.readers disk).1 = .error e ∧
      r.attempt disk now = ({ r with
        directory := (r.directory.assemble r.readers disk).2, queue := r.queue.pause due }, none)) ∨
    ∃ outcome, (r.directory.assemble r.readers disk).1 = outcome ∧
      r.attempt disk now =
        ({ r.record outcome with
            directory := (r.directory.assemble r.readers disk).2, queue := r.queue.leave now },
          some ⟨reload.requester, outcome,
            r.subscribers.map fun callback => callback outcome⟩) := by
  rw [attempt, hrunning]
  generalize r.directory.assemble r.readers disk = answer
  obtain ⟨outcome, directory⟩ := answer
  cases outcome with
  | error e =>
    dsimp only
    split
    · exact .inl ⟨e, _, rfl, rfl⟩
    · exact .inr ⟨_, rfl, rfl⟩
  | ok material => exact .inr ⟨_, rfl, rfl⟩

/-- A rotator that starts to watch, or fails to: the directory and the watcher of the notifier are
other ones. -/
theorem exists_eq_of_watch {disk : Disk} {runtime : Bool} {answer : Except CertError Unit}
    (hwatch : r.watch disk runtime = (answer, r')) : ∃ directory watcher,
      r' = { r with directory := directory, notifier := { r.notifier with watcher := watcher } } := by
  have hr : r' = (r.watch disk runtime).2 := by rw [hwatch]
  rw [hr, watch]
  split
  · exact ⟨_, _, rfl⟩
  · dsimp only
    split
    · exact ⟨_, _, rfl⟩
    · exact ⟨_, _, rfl⟩

/-- **What a step may do to a rotator**, with the events that it adds to the history. -/
inductive Moves (r : Rotator L) : RotatorHistory → Rotator L → Prop
  /-- The directory and the watcher of the notifier may become other ones. -/
  | quiet (directory : CertDirectory) (watcher : PathWatcher) : Moves r [] { r with
      directory := directory
      notifier := { r.notifier with watcher := watcher } }
  /-- The notifier relays some changes, and its signals schedule reloads. -/
  | relayed {answer : Notifier L × List Delivery} (changes : List Change)
      (hrelays : r.notifier.IsRelay → r.notifier.Relays answer.1 changes answer.2) :
      Moves r (changes.map (.pushed true)) (r.fired answer)
  /-- A change comes where nothing can run later, and its signals are lost. -/
  | dropped (notifier : Notifier L) (change : Change) :
      Moves r [.pushed false change] { r with notifier := notifier }
  /-- A reload comes to the queue, where it was scheduled or the rotator has been started or asked
  for it. -/
  | entered (directory : CertDirectory) (watcher : PathWatcher) (count : Nat) (now : Instant)
      (requester : Requester) : Moves r [.entered requester] { r with
        directory := directory
        notifier := { r.notifier with watcher := watcher }
        queue := { r.queue with scheduled := count }.enter now requester }
  | stopped : Moves r [.stopped] r.stop
  /-- There is a new subscriber, or one that will answer in another way. -/
  | listening {e : RotatorEvent} (he : (∃ callback, e = .subscribed callback) ∨
      ∃ subscriber callback, e = .exchanged subscriber callback) :
      Moves r [e] { r with subscribers := e.subscribers r.subscribers }
  /-- The running reload fails at an attempt and goes on. -/
  | paused {reload : RunningReload} (hrunning : r.queue.running = some reload)
      (directory : CertDirectory) (e : CertError) (due : Instant) :
      Moves r [.attempted reload (.error e) none]
        { r with directory := directory, queue := r.queue.pause due }
  /-- The running reload makes its last attempt. -/
  | completed {reload : RunningReload} (hrunning : r.queue.running = some reload) {disk : Disk}
      {outcome : ReloadOutcome} (houtcome : (r.directory.assemble r.readers disk).1 = outcome)
      (directory : CertDirectory) (now : Instant) :
      Moves r [.attempted reload outcome (some ⟨reload.requester, outcome,
          r.subscribers.map fun callback => callback outcome⟩)]
        { r.record outcome with directory := directory, queue := r.queue.leave now }

end Rotator

/-- A rotator, the disk that it reads and the time. -/
structure LiveRotator (L : Type) where
  disk : Disk
  now : Instant
  rotator : Rotator L

namespace LiveRotator

variable {L : Type}

/-- The same disk and time with another rotator. -/
def become (s : LiveRotator L) (r : Rotator L) : LiveRotator L := { s with rotator := r }

/-- One step, and the events that it adds to the history. -/
inductive Step [Limiter L] (s : LiveRotator L) : RotatorHistory → LiveRotator L → Prop
  | edit (disk : Disk) : Step s [] { s with disk := disk }
  | wait {now : Instant} (hnow : s.now ≤ now) : Step s [] { s with now := now }
  /-- A change is pushed into the notifier. -/
  | push (runtime : Bool) (change : Change) :
      Step s [.pushed runtime change] (s.become (s.rotator.pushChange s.now runtime change))
  /-- A report reaches the directory. -/
  | toDirectory (report : Notification) :
      Step s [] (s.become (s.rotator.notifyDirectory s.disk report))
  /-- A report reaches the notifier, which may be handed several changes. -/
  | toNotifier (report : Notification) :
      Step s ((s.rotator.notifier.handedOn s.disk report).map (.pushed true))
        (s.become (s.rotator.notifyNotifier s.disk s.now report))
  | failure (e : NotifyError) : Step s [] (s.become (s.rotator.notifyError s.now e))
  /-- All timers go off that are due. -/
  | fire : Step s [] (s.become (s.rotator.fireDue s.now))
  /-- One timer goes off. -/
  | timer {task : TimerTask} (htask : task ∈ s.rotator.notifier.changes.tasks)
      (hdue : task.due ≤ s.now) :
      Step s [] (s.become (s.rotator.fired (s.rotator.notifier.fireChanges task)))
  | errorTimer {task : TimerTask} (htask : task ∈ s.rotator.notifier.errors.tasks)
      (hdue : task.due ≤ s.now) :
      Step s [] (s.become (s.rotator.fired (s.rotator.notifier.fireErrors task)))
  /-- A scheduled reload comes to the queue. -/
  | enter {count : Nat} (hscheduled : s.rotator.queue.scheduled = count + 1) :
      Step s [.entered .change] (s.become { s.rotator with
        queue := { s.rotator.queue with scheduled := count }.enter s.now .change })
  /-- Somebody asks for a reload. -/
  | call : Step s [.entered .caller] (s.become (s.rotator.enter s.now .caller))
  /-- Somebody starts the rotator, which then reloads. -/
  | start {runtime : Bool} {r : Rotator L}
      (hwatch : s.rotator.watch s.disk runtime = (.ok (), r)) :
      Step s [.entered .caller] (s.become (r.enter s.now .caller))
  /-- Somebody fails to start it. -/
  | startFails {runtime : Bool} {e : CertError} {r : Rotator L}
      (hwatch : s.rotator.watch s.disk runtime = (.error e, r)) : Step s [] (s.become r)
  | stop : Step s [.stopped] (s.become s.rotator.stop)
  | subscribe (callback : Callback ReloadOutcome) :
      Step s [.subscribed callback] (s.become (s.rotator.subscribe callback))
  /-- A callback need not end in the same way whenever it is called. -/
  | exchange (subscriber : Nat) (callback : Callback ReloadOutcome) :
      Step s [.exchanged subscriber callback] (s.become { s.rotator with
        subscribers := s.rotator.subscribers.set subscriber callback })
  /-- The running reload makes an attempt that is due. -/
  | attempt {reload : RunningReload} (hrunning : s.rotator.queue.running = some reload)
      (hdue : reload.due ≤ s.now) :
      Step s [.attempted reload (s.rotator.directory.assemble s.rotator.readers s.disk).1
          (s.rotator.attempt s.disk s.now).2]
        (s.become (s.rotator.attempt s.disk s.now).1)

/-- From `s` a history may lead to a state. -/
inductive Runs [Limiter L] (s : LiveRotator L) : RotatorHistory → LiveRotator L → Prop
  | rest : Runs s [] s
  | step {h es : RotatorHistory} {t u : LiveRotator L} (hrun : Runs s h t) (hstep : Step t es u) :
      Runs s (h ++ es) u

variable [Limiter L] {s t u : LiveRotator L} {h es front rest : RotatorHistory}
  {reload : RunningReload} {outcome : ReloadOutcome} {done : Option Completion}

/-- **There are no other steps.** -/
theorem Step.moves (hstep : Step s es t) : s.rotator.Moves es t.rotator := by
  cases hstep with
  | edit disk => exact .quiet _ _
  | wait hnow => exact .quiet _ _
  | push runtime change =>
    cases runtime with
    | true => exact .relayed [change] fun hrelay => hrelay.pushChange s.now change
    | false => exact .dropped _ change
  | toDirectory report => exact .quiet _ _
  | toNotifier report => exact .relayed _ fun hrelay => hrelay.notified s.disk s.now report
  | failure e => exact .relayed [] fun hrelay => hrelay.notifiedError s.now e
  | fire => exact .relayed [] fun hrelay => hrelay.fireDue s.now
  | timer htask hdue => exact .relayed [] fun hrelay => hrelay.fireChanges _
  | errorTimer htask hdue => exact .relayed [] fun hrelay => hrelay.fireErrors _
  | enter hscheduled => exact .entered _ _ _ s.now .change
  | call => exact .entered _ _ s.rotator.queue.scheduled s.now .caller
  | start hwatch =>
    obtain ⟨directory, watcher, rfl⟩ := Rotator.exists_eq_of_watch hwatch
    exact .entered _ _ s.rotator.queue.scheduled s.now .caller
  | startFails hwatch =>
    obtain ⟨directory, watcher, rfl⟩ := Rotator.exists_eq_of_watch hwatch
    exact .quiet _ _
  | stop => exact .stopped
  | subscribe callback => exact .listening (.inl ⟨callback, rfl⟩)
  | exchange subscriber callback => exact .listening (.inr ⟨subscriber, callback, rfl⟩)
  | attempt hrunning hdue =>
    rcases Rotator.attempt_eq hrunning s.disk s.now with
      ⟨e, due, houtcome, hattempt⟩ | ⟨outcome, houtcome, hattempt⟩
    · rw [hattempt, houtcome]
      exact .paused hrunning _ e due
    · rw [hattempt, houtcome]
      exact .completed hrunning houtcome _ s.now

/-- A step with an attempt is that attempt. -/
theorem Step.of_attempted (hstep : Step t es u) (hmem : .attempted reload outcome done ∈ es) :
    es = [.attempted reload outcome done] ∧ t.rotator.queue.running = some reload ∧
      (t.rotator.directory.assemble t.rotator.readers t.disk).1 = outcome := by
  cases hstep with
  | attempt hrunning hdue =>
    cases List.mem_singleton.1 hmem
    exact ⟨rfl, hrunning, rfl⟩
  | toNotifier report =>
    obtain ⟨change, -, hpushed⟩ := List.mem_map.1 hmem
    cases hpushed
  | _ => simp at hmem

/-- **Where an attempt comes from**: it was made in a state to which the history before it led. -/
theorem Runs.of_attempted (hrun : Runs s h u)
    (heq : h = front ++ .attempted reload outcome done :: rest) :
    ∃ t, Runs s front t ∧ t.rotator.queue.running = some reload ∧
      (t.rotator.directory.assemble t.rotator.readers t.disk).1 = outcome := by
  induction hrun generalizing rest with
  | rest => simp at heq
  | @step h es t u hrun hstep ih =>
    by_cases hmem : .attempted reload outcome done ∈ es
    · obtain ⟨rfl, hattempt⟩ := hstep.of_attempted hmem
      rcases RotatorHistory.of_concat_eq heq with ⟨more, hbefore⟩ | ⟨rfl, -⟩
      · exact ih hbefore
      · exact ⟨t, hrun, hattempt⟩
    · rcases RotatorHistory.of_append_eq heq with ⟨more, hbefore⟩ | ⟨mid, hafter, -⟩
      · exact ih hbefore
      · exact absurd (by simp [hafter]) hmem

end LiveRotator

end CertRotation
