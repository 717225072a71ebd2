import CertRotation.Proofs.Watch.Batches
import CertRotation.Proofs.Watch.Loading

/-!
# No signal is missed

A notifier without a callback for batches only signals that something changed.  It may keep a change
for a while, but as long as it does, a timer of the present generation lives, and when that timer
goes off the signal comes.

* `Notifier.IsSignalling` — the invariant of such a notifier while it watches;
* `Notifier.IsSignalling.pushChange` — a change that came in waits or has been signalled;
* `Notifier.IsSignalling.fireDue` — when timers go off, what waited still waits or has been
  signalled;
* `Notifier.IsSignalling.notified_eq` — a report about a file comes to the change that it means.
-/

set_option autoImplicit false

namespace CertRotation

/-- The number of signals among some calls. -/
def Delivery.signals (ds : List Delivery) : Nat :=
  ds.countP fun
    | .signal _ => true
    | _ => false

theorem Delivery.signals_append (ds es : List Delivery) :
    signals (ds ++ es) = signals ds + signals es := List.countP_append

namespace PendingChanges

/-- Some change is pending. -/
def Waits (pending : PendingChanges) : Prop := ∃ b ∈ pending, b.2 ≠ []

theorem not_waits_nil : ¬ Waits [] := by
  rintro ⟨b, hb, -⟩
  cases hb

theorem all_isEmpty_iff {pending : PendingChanges} :
    (pending.all fun b => b.2.isEmpty) ↔ ¬ pending.Waits := by
  simp [Waits]

theorem waits_file (pending : PendingChanges) (root : Path) (change : Change) :
    (pending.file root change).Waits := by
  induction pending with
  | nil => exact ⟨(root, [change]), List.mem_singleton_self _, by simp⟩
  | cons first rest ih =>
    obtain ⟨other, changes⟩ := first
    rw [file]
    split
    · exact ⟨(root, [change]), List.mem_cons_self, by simp⟩
    · exact ⟨(other, changes ++ [change]), List.mem_cons_self, by simp⟩
    · obtain ⟨b, hb, hne⟩ := ih
      exact ⟨b, List.mem_cons_of_mem _ hb, hne⟩

end PendingChanges

open Delivery PendingChanges

namespace Notifier

variable {L : Type} {n m o : Notifier L} {ds es : List Delivery}

/-- Changes are pending. -/
def Waits (n : Notifier L) : Prop := n.changes.pending.Waits

/-- The notifier watches and only signals, and while changes are pending a timer lives that will
signal them. -/
structure IsSignalling (n : Notifier L) : Prop where
  batch : n.handlers.batch = none
  signal : n.handlers.change.isSome
  watching : n.isWatching
  onChange : n.watcher.onChange.isSome
  timed : n.Waits → ∃ task ∈ n.changes.tasks, n.changes.isCurrent task

/-- **A notifier that has been started** and has no callback for batches only signals. -/
theorem isSignalling_of_startWatching {disk disk' : Disk} {c : NotifierConfig} {limiter : L}
    {runtime : Bool} (hbatch : c.handlers.batch = none) (hsignal : c.handlers.change.isSome)
    (hnew : Notifier.new disk c limiter = .ok n)
    (hstart : n.startWatching disk' runtime = (.ok (), m)) :
    m.IsSignalling ∧ ¬ m.Waits ∧ m.changes.tasks = [] ∧ m.errors.tasks = [] := by
  obtain ⟨hhandlers, hchanges, herrors, hadd⟩ := of_new hnew
  rw [startWatching] at hstart
  cases hwatcher : n.watcher.start disk' runtime with
  | mk answer rest =>
    obtain ⟨watcher, effects⟩ := rest
    rw [hwatcher] at hstart
    cases hstart
    obtain ⟨hrun, hcall⟩ := PathWatcher.start_ok hwatcher
    have hnot : ¬ ({ n with watcher := watcher } : Notifier L).Waits := by
      rw [Waits, hchanges]
      exact not_waits_nil
    refine ⟨⟨?_, ?_, hrun, ?_, fun h => absurd h hnot⟩, hnot, ?_, ?_⟩
    · rw [hhandlers]
      exact hbatch
    · rw [hhandlers]
      exact hsignal
    · rw [hcall, (PathWatcher.addPaths_ok hadd).1]
      rfl
    · rw [hchanges]
      rfl
    · rw [herrors]
      rfl

/-- Where changes are pending, a flush signals them. -/
theorem flushChanges_eq (hbatch : n.handlers.batch = none) (hsignal : n.handlers.change.isSome) :
    ¬ n.Waits ∧ n.flushChanges = (n, []) ∨
      n.Waits ∧ n.flushChanges.1 = { n with changes := { n.changes with pending := [] } } ∧
        signals n.flushChanges.2 = 1 := by
  obtain ⟨callback, hcallback⟩ := Option.isSome_iff_exists.1 hsignal
  by_cases hwaits : n.Waits
  · have hall : ¬ (n.changes.pending.all fun b => b.2.isEmpty) := fun h =>
      all_isEmpty_iff.1 h hwaits
    rw [flushChanges, if_neg hall, deliver, hbatch, hcallback]
    exact .inr ⟨hwaits, rfl, rfl⟩
  · rw [flushChanges, if_pos (all_isEmpty_iff.2 hwaits)]
    exact .inl ⟨hwaits, rfl⟩

/-- A flush leaves nothing pending. -/
theorem not_waits_flushChanges (hbatch : n.handlers.batch = none)
    (hsignal : n.handlers.change.isSome) : ¬ n.flushChanges.1.Waits := by
  rcases flushChanges_eq hbatch hsignal with ⟨hwaits, heq⟩ | ⟨-, heq, -⟩
  · rw [heq]
    exact hwaits
  · rw [heq]
    exact not_waits_nil

/-- Where the timer has just been set, nothing that is pending is forgotten. -/
theorem isSignalling_arm (hbatch : n.handlers.batch = none) (hsignal : n.handlers.change.isSome)
    (hwatch : n.isWatching) (hcall : n.watcher.onChange.isSome) (now : Instant) :
    IsSignalling { n with changes := n.changes.arm now n.interval } where
  batch := hbatch
  signal := hsignal
  watching := hwatch
  onChange := hcall
  timed _ := by
    refine ⟨_, List.mem_append_right _ (List.mem_singleton_self _), ?_⟩
    exact decide_eq_true rfl

/-- Whether or not changes that wait are flushed, they wait or have been signalled. -/
theorem flushIf_waits (hbatch : n.handlers.batch = none) (hsignal : n.handlers.change.isSome)
    (hwaits : n.Waits) (granted : Bool) :
    (if granted then n.flushChanges else (n, [])).1.handlers = n.handlers ∧
      (if granted then n.flushChanges else (n, [])).1.watcher = n.watcher ∧
      ((if granted then n.flushChanges else (n, [])).1.Waits ∨
        0 < signals (if granted then n.flushChanges else (n, [])).2) := by
  cases granted with
  | false => exact ⟨rfl, rfl, .inl hwaits⟩
  | true =>
    have hflush := flushChanges_eq hbatch hsignal
    obtain ⟨-, heq, hone⟩ := hflush.resolve_left fun hnot => hnot.1 hwaits
    rw [if_pos rfl, heq, hone]
    exact ⟨rfl, rfl, .inr Nat.one_pos⟩

/-- What becomes of a change that came in before its timer is set. -/
theorem exists_pushChange_eq [Limiter L] (hbatch : n.handlers.batch = none)
    (hsignal : n.handlers.change.isSome) (now : Instant) (change : Change) :
    ∃ (m : Notifier L) (ds : List Delivery), m.handlers = n.handlers ∧ m.watcher = n.watcher ∧
      (m.Waits ∨ 0 < signals ds) ∧
      n.pushChange now true change = ({ m with changes := m.changes.arm now m.interval }, ds) := by
  rw [Notifier.pushChange]
  have hpending := acquire_pending { n.changes with
    pending := n.changes.pending.file (n.rootFor change.path) change } now
  generalize { n.changes with
    pending := n.changes.pending.file (n.rootFor change.path) change }.acquire now = answer
    at hpending ⊢
  obtain ⟨granted, lane⟩ := answer
  have hwaits : ({ n with changes := lane } : Notifier L).Waits := by
    rw [Waits, hpending]
    exact waits_file _ _ _
  have hflush := flushIf_waits (n := { n with changes := lane }) hbatch hsignal hwaits granted
  dsimp only at hflush ⊢
  generalize (if granted then _ else _ : Notifier L × List Delivery) = flushed at hflush ⊢
  obtain ⟨m, first⟩ := flushed
  obtain ⟨hhandlers, hwatcher, hout⟩ := hflush
  exact ⟨m, first, hhandlers, hwatcher, hout, rfl⟩

/-- **A change that came in waits or has been signalled.** -/
theorem IsSignalling.pushChange [Limiter L] (h : n.IsSignalling) (now : Instant)
    (change : Change) :
    (n.pushChange now true change).1.IsSignalling ∧
      ((n.pushChange now true change).1.Waits ∨ 0 < signals (n.pushChange now true change).2) := by
  obtain ⟨m, ds, hhandlers, hwatcher, hout, heq⟩ := exists_pushChange_eq h.batch h.signal now change
  rw [heq]
  refine ⟨isSignalling_arm ?_ ?_ ?_ ?_ now, hout⟩
  · rw [hhandlers]
    exact h.batch
  · rw [hhandlers]
    exact h.signal
  · rw [isWatching, hwatcher]
    exact h.watching
  · rw [hwatcher]
    exact h.onChange

/-- From `n` to `m`, with the calls `ds`, the notifier remains one that signals, and what waited
still waits or has been signalled. -/
structure Carries (n m : Notifier L) (ds : List Delivery) : Prop where
  signalling : m.IsSignalling
  waits : n.Waits → m.Waits ∨ 0 < signals ds

theorem IsSignalling.carries (h : n.IsSignalling) : Carries n n [] := ⟨h, .inl⟩

theorem Carries.trans (h : Carries n m ds) (h' : Carries m o es) : Carries n o (ds ++ es) := by
  refine ⟨h'.signalling, fun hn => ?_⟩
  rw [signals_append]
  rcases h.waits hn with hm | hds
  · rcases h'.waits hm with ho | hes
    · exact .inl ho
    · exact .inr (by omega)
  · exact .inr (by omega)

/-- A flush carries what waits. -/
theorem carries_flushChanges (hbatch : n.handlers.batch = none)
    (hsignal : n.handlers.change.isSome) (hwatch : n.isWatching)
    (hcall : n.watcher.onChange.isSome) : Carries n n.flushChanges.1 n.flushChanges.2 := by
  have hnot := not_waits_flushChanges hbatch hsignal
  rcases flushChanges_eq hbatch hsignal with ⟨hwaits, heq⟩ | ⟨-, heq, hone⟩
  · rw [heq]
    exact ⟨⟨hbatch, hsignal, hwatch, hcall, fun h => absurd h hwaits⟩, fun h => absurd h hwaits⟩
  · rw [heq] at hnot ⊢
    refine ⟨⟨hbatch, hsignal, hwatch, hcall, fun h => absurd h hnot⟩, fun _ => .inr ?_⟩
    rw [hone]
    exact Nat.one_pos

theorem IsSignalling.fireChanges (h : n.IsSignalling) (task : TimerTask) :
    Carries n (n.fireChanges task).1 (n.fireChanges task).2 := by
  rw [Notifier.fireChanges]
  by_cases hcurrent : n.changes.isCurrent task
  · rw [if_pos hcurrent]
    have hcarries := carries_flushChanges (n := { n with changes := n.changes.finish task }) h.batch
      h.signal h.watching h.onChange
    exact ⟨hcarries.signalling, hcarries.waits⟩
  · rw [if_neg hcurrent]
    refine ⟨⟨h.batch, h.signal, h.watching, h.onChange, fun hwaits => ?_⟩, .inl⟩
    -- The timer that went off is of a generation that has passed, so the present one still lives.
    obtain ⟨live, hlive, hgeneration⟩ := h.timed hwaits
    refine ⟨live, List.mem_filter.2 ⟨hlive, decide_eq_true ?_⟩, hgeneration⟩
    rintro rfl
    exact hcurrent hgeneration

/-- Errors have their own lane. -/
theorem exists_fireErrors (n : Notifier L) (task : TimerTask) :
    ∃ errors, (n.fireErrors task).1 = { n with errors := errors } := by
  rw [Notifier.fireErrors]
  split
  · rw [flushErrors]
    split
    · exact ⟨_, rfl⟩
    · exact ⟨_, rfl⟩
  · exact ⟨_, rfl⟩

theorem IsSignalling.fireErrors (h : n.IsSignalling) (task : TimerTask) :
    Carries n (n.fireErrors task).1 (n.fireErrors task).2 := by
  obtain ⟨errors, heq⟩ := exists_fireErrors n task
  rw [heq]
  exact ⟨⟨h.batch, h.signal, h.watching, h.onChange, h.timed⟩, .inl⟩

/-- What each step carries, all steps carry. -/
theorem IsSignalling.steps {α : Type} {step : Notifier L → α → Notifier L × List Delivery}
    (hstep : ∀ (n : Notifier L) (a : α), n.IsSignalling → Carries n (step n a).1 (step n a).2)
    (h : n.IsSignalling) (todo : List α) :
    Carries n (Notifier.steps step n todo).1 (Notifier.steps step n todo).2 := by
  induction todo generalizing n with
  | nil => exact h.carries
  | cons a todo ih =>
    have hfirst := hstep n a h
    exact hfirst.trans (ih hfirst.signalling)

/-- **When timers go off, what waited still waits or has been signalled.** -/
theorem IsSignalling.fireDue (h : n.IsSignalling) (now : Instant) :
    Carries n (n.fireDue now).1 (n.fireDue now).2 := by
  have hchanges := h.steps (fun _ task hn => hn.fireChanges task) (dueBy now n.changes.tasks)
  have herrors := hchanges.signalling.steps fun _ task hn => hn.fireErrors task
  exact hchanges.trans (herrors _)

/-- **A report about a file comes to the change that it means.** -/
theorem IsSignalling.notified_eq [Limiter L] (h : n.IsSignalling) {disk : Disk} (now : Instant)
    {kind : NotificationKind} {p : Path} {op : Ops} (hop : Notification.op? disk kind p = some op)
    (hp : disk.isDir p = false) :
    n.notified disk now ⟨kind, [p]⟩ = n.pushChange now true ⟨p, op⟩ := by
  obtain ⟨callback, hcallback⟩ := Option.isSome_iff_exists.1 h.onChange
  have hrun : n.watcher.running = true := h.watching
  have hwatcher : n.watcher.notified disk ⟨kind, [p]⟩ = _ :=
    PathWatcher.notified_eq hrun hcallback hp
  rw [PathWatcher.notified, if_pos hrun, hop] at hwatcher
  rw [Notifier.notified, if_pos h.watching, dispatch, hwatcher]
  exact Prod.ext rfl (List.append_nil _)

end Notifier

end CertRotation
