import CertRotation.Proofs.Watch.Signals
import CertRotation.Proofs.Watch.Timers

/-!
# Every change is signalled

A notifier that only signals, whether it watches or not, relays each change that comes in: the
change waits, and a timer lives that will signal it, or it has been signalled.  That is so whatever
else comes in between, be it errors, timers or other changes.

* `Notifier.IsRelay` — the notifier only signals, and nothing is stranded in its lanes;
* `Notifier.Relays` — on the way from one state to another every change was relayed;
* `Notifier.IsRelay.pushChange` and so on — that is so for everything that a notifier does.
-/

set_option autoImplicit false

namespace CertRotation

open Delivery PendingChanges

namespace Notifier

variable {L : Type} {n m o : Notifier L} {changes more : List Change} {ds es : List Delivery}

/-- The changes that the watcher hands on when it is told of a report. -/
def handedOn (n : Notifier L) (disk : Disk) (report : Notification) : List Change :=
  if n.isWatching then (n.watcher.dispatch disk report).2.filterMap WatchEffect.change? else []

/-- The notifier only signals, and nothing is stranded in its lanes. -/
structure IsRelay (n : Notifier L) : Prop where
  batch : n.handlers.batch = none
  signal : n.handlers.change.isSome
  timed : ∃ delay changed failed, n.IsTimed delay changed failed

/-- On the way from `n` to `m` the changes `changes` came in and the calls `ds` were made, and if
something waited before or came in, something waits still or has been signalled. -/
structure Relays (n m : Notifier L) (changes : List Change) (ds : List Delivery) : Prop where
  relay : m.IsRelay
  waits : n.Waits ∨ changes ≠ [] → m.Waits ∨ 0 < signals ds

/-- Where no timer lives, nothing waits. -/
theorem IsRelay.not_waits (h : n.IsRelay) (htasks : n.changes.tasks = []) : ¬ n.Waits := by
  obtain ⟨delay, changed, failed, htimed⟩ := h.timed
  rw [Waits, htimed.changes.pending htasks]
  exact not_waits_nil

/-- The watcher does not matter to what is relayed. -/
theorem IsRelay.withWatcher (h : n.IsRelay) (watcher : PathWatcher) :
    IsRelay { n with watcher := watcher } := by
  obtain ⟨delay, changed, failed, htimed⟩ := h.timed
  exact ⟨h.batch, h.signal, delay, changed, failed, htimed.interval, htimed.filed, htimed.changes,
    htimed.errors⟩

/-- Where nothing comes in, only what waited has to be relayed. -/
theorem IsRelay.relays (h : m.IsRelay) (hwaits : n.Waits → m.Waits ∨ 0 < signals ds) :
    Relays n m [] ds := ⟨h, fun hn => hwaits (hn.resolve_right fun hne => hne rfl)⟩

theorem Relays.trans (h : Relays n m changes ds) (h' : Relays m o more es) :
    Relays n o (changes ++ more) (ds ++ es) where
  relay := h'.relay
  waits hn := by
    rw [signals_append]
    have hcame : (n.Waits ∨ changes ≠ []) ∨ more ≠ [] := by
      rcases hn with hn | hne
      · exact .inl (.inl hn)
      · by_cases hchanges : changes = []
        · exact .inr fun hmore => hne (by rw [hchanges, hmore]; rfl)
        · exact .inl (.inr hchanges)
    rcases hcame with hfirst | hmore
    · rcases h.waits hfirst with hm | hds
      · exact (h'.waits (.inl hm)).imp_right fun hes => by omega
      · exact .inr (by omega)
    · exact (h'.waits (.inr hmore)).imp_right fun hes => by omega

/-! ## What a notifier does -/

theorem IsRelay.pushChange [Limiter L] (h : n.IsRelay) (now : Instant) (change : Change) :
    Relays n (n.pushChange now true change).1 [change] (n.pushChange now true change).2 := by
  obtain ⟨delay, changed, failed, htimed⟩ := h.timed
  have hpushed := htimed.pushChange now true change
  obtain ⟨m, ds, hhandlers, -, hout, heq⟩ := exists_pushChange_eq h.batch h.signal now change
  rw [heq] at hpushed ⊢
  refine ⟨⟨?_, ?_, delay, _, failed, hpushed⟩, fun _ => hout⟩
  · show m.handlers.batch = none
    rw [hhandlers]
    exact h.batch
  · show m.handlers.change.isSome
    rw [hhandlers]
    exact h.signal

theorem IsRelay.pushError [Limiter L] (h : n.IsRelay) (now : Instant) (e : WatchError) :
    Relays n (n.pushError now true e).1 [] (n.pushError now true e).2 := by
  obtain ⟨delay, changed, failed, htimed⟩ := h.timed
  have hpushed := htimed.pushError now true e
  obtain ⟨lane, -, heq⟩ := exists_fst_pushError n now true e
  rw [heq] at hpushed ⊢
  exact IsRelay.relays ⟨h.batch, h.signal, delay, changed, _, hpushed⟩ .inl

theorem IsRelay.fireChanges (h : n.IsRelay) (task : TimerTask) :
    Relays n (n.fireChanges task).1 [] (n.fireChanges task).2 := by
  obtain ⟨delay, changed, failed, htimed⟩ := h.timed
  have hfired := htimed.fireChanges task
  rw [Notifier.fireChanges] at hfired ⊢
  by_cases hcurrent : n.changes.isCurrent task
  · rw [if_pos hcurrent] at hfired ⊢
    rcases flushChanges_eq (n := { n with changes := n.changes.finish task }) h.batch h.signal with
      ⟨hnot, heq⟩ | ⟨-, heq, hone⟩
    · rw [heq] at hfired ⊢
      exact IsRelay.relays ⟨h.batch, h.signal, delay, changed, failed, hfired⟩ .inl
    · rw [heq] at hfired
      refine IsRelay.relays ?_ fun _ => .inr (by rw [hone]; exact Nat.one_pos)
      rw [heq]
      exact ⟨h.batch, h.signal, delay, changed, failed, hfired⟩
  · rw [if_neg hcurrent] at hfired ⊢
    exact IsRelay.relays ⟨h.batch, h.signal, delay, changed, failed, hfired⟩ .inl

theorem IsRelay.fireErrors (h : n.IsRelay) (task : TimerTask) :
    Relays n (n.fireErrors task).1 [] (n.fireErrors task).2 := by
  obtain ⟨delay, changed, failed, htimed⟩ := h.timed
  have hfired := htimed.fireErrors task
  obtain ⟨errors, heq⟩ := exists_fireErrors n task
  rw [heq] at hfired ⊢
  exact IsRelay.relays ⟨h.batch, h.signal, delay, changed, failed, hfired⟩ .inl

/-- What each step relays, all steps relay. -/
theorem IsRelay.steps {α : Type} {step : Notifier L → α → Notifier L × List Delivery}
    (h : n.IsRelay) (brings : α → Option Change)
    (hstep : ∀ (n : Notifier L) (a : α), n.IsRelay →
      Relays n (step n a).1 (brings a).toList (step n a).2) (todo : List α) :
    Relays n (Notifier.steps step n todo).1 (todo.filterMap brings)
      (Notifier.steps step n todo).2 := by
  induction todo generalizing n with
  | nil => exact h.relays .inl
  | cons a todo ih =>
    have hfirst := hstep n a h
    have hall := hfirst.trans (ih hfirst.relay)
    cases hbrings : brings a with
    | none =>
      rw [hbrings] at hall
      rw [List.filterMap_cons_none hbrings]
      exact hall
    | some change =>
      rw [hbrings] at hall
      rw [List.filterMap_cons_some hbrings]
      exact hall

/-- When timers go off, what waited still waits or has been signalled. -/
theorem IsRelay.fireDue (h : n.IsRelay) (now : Instant) :
    Relays n (n.fireDue now).1 [] (n.fireDue now).2 := by
  have hchanges := h.steps (fun _ => none) (fun _ task hn => hn.fireChanges task)
    (dueBy now n.changes.tasks)
  have hboth := fun todo => hchanges.trans (hchanges.relay.steps (fun _ => none)
    (fun _ task hn => hn.fireErrors task) todo)
  simp only [List.filterMap_none, List.append_nil] at hboth
  exact hboth _

/-- Whatever the watcher has handed on is relayed. -/
theorem IsRelay.takeIn [Limiter L] (h : n.IsRelay) (now : Instant) (effects : List WatchEffect) :
    Relays n (n.takeIn now true effects).1 (effects.filterMap WatchEffect.change?)
      (n.takeIn now true effects).2 := by
  refine h.steps WatchEffect.change? (fun n effect hn => ?_) effects
  cases effect with
  | watch _ _ => exact hn.relays .inl
  | change change call => exact hn.pushChange now change
  | error e call => exact hn.pushError now e

/-- A report of the system is relayed as the changes that the watcher hands on. -/
theorem IsRelay.notified [Limiter L] (h : n.IsRelay) (disk : Disk) (now : Instant)
    (report : Notification) :
    Relays n (n.notified disk now report).1 (n.handedOn disk report)
      (n.notified disk now report).2 := by
  rw [Notifier.notified, handedOn]
  by_cases hwatching : n.isWatching
  · rw [if_pos hwatching, if_pos hwatching, dispatch]
    generalize n.watcher.dispatch disk report = answer
    obtain ⟨watcher, effects⟩ := answer
    have htaken := (h.withWatcher watcher).takeIn now effects
    exact ⟨htaken.relay, htaken.waits⟩
  · rw [if_neg hwatching, if_neg hwatching]
    exact h.relays .inl

/-- A failure of the notifications is no change. -/
theorem IsRelay.notifiedError [Limiter L] (h : n.IsRelay) (now : Instant) (e : NotifyError) :
    Relays n (n.notifiedError now e).1 [] (n.notifiedError now e).2 := by
  rw [Notifier.notifiedError]
  split
  · have hnone : (n.watcher.dispatchError e).filterMap WatchEffect.change? = [] := by
      rw [PathWatcher.dispatchError]
      split
      · rfl
      · rfl
    have htaken := h.takeIn now (n.watcher.dispatchError e)
    rw [hnone] at htaken
    exact htaken
  · exact h.relays .inl

end Notifier

end CertRotation
