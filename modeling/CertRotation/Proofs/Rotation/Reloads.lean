import CertRotation.Proofs.Rotation.Bookkeeping
import CertRotation.Proofs.Rotation.Serial

/-!
# No reload is lost

A change that comes to a rotator waits for its timer, or it has been signalled and a reload is on
its way.  Reloads do not overtake one another, so however late it is, some reload makes its last
attempt after the change.  Nothing but a stop or a change outside of a runtime stands against that.

* `Rotator.HasReloadAhead` — something is on its way that leads to a reload;
* `RotatorHistory.IsAnswered` — a reload has ended since the last change came;
* `Rotator.IsResponsive` — one of the two is so once a change has come, and
  `Rotator.IsResponsive.moves`: every step keeps it so;
* `LiveRotator.answered_of_runs` — so when no timer lives and no reload is under way, what has been
  published was assembled after the last change.
-/

set_option autoImplicit false

namespace CertRotation

namespace RotatorHistory

variable {h es : RotatorHistory}

/-- A change has come in. -/
def HasPush (h : RotatorHistory) : Prop := ∃ e ∈ h, e.isPush

/-- The last attempt of some reload came after the last change, and no reload has ended since. -/
def IsAnswered (h : RotatorHistory) : Prop :=
  ∃ front reload c rest, h = front ++ .attempted reload c.outcome (some c) :: rest ∧
    ¬ HasPush rest ∧ completions rest = []

theorem hasPush_append : HasPush (h ++ es) ↔ h.HasPush ∨ es.HasPush := by
  simp [HasPush, or_and_right, exists_or]

theorem completions_cons_attempted {reload : RunningReload} {outcome : ReloadOutcome}
    {c : Completion} :
    completions (.attempted reload outcome (some c) :: h) = c :: h.completions := rfl

/-- What has been answered stays so until another change comes or another reload ends. -/
theorem IsAnswered.append (hanswered : h.IsAnswered) (hpush : ¬ es.HasPush)
    (hes : ∀ e ∈ es, e.completion? = none) : IsAnswered (h ++ es) := by
  obtain ⟨front, reload, c, rest, rfl, hrest, hnone⟩ := hanswered
  refine ⟨front, reload, c, rest ++ es, List.append_assoc .., ?_, ?_⟩
  · rw [hasPush_append]
    exact not_or.2 ⟨hrest, hpush⟩
  · rw [completions_append, hnone, completions_eq_nil hes]
    rfl

end RotatorHistory

namespace Rotator

variable {L : Type} {r r' : Rotator L} {h es : RotatorHistory}

/-- Something is on its way that leads to a reload. -/
def HasReloadAhead (r : Rotator L) : Prop := r.notifier.Waits ∨ r.queue.isIdle = false

/-- **A rotator that answers every change**: its notifier relays changes, and once a change has
come, a reload is ahead or has ended since. -/
structure IsResponsive (r : Rotator L) (h : RotatorHistory) : Prop where
  relay : r.notifier.IsRelay
  answered : h.HasPush → r.HasReloadAhead ∨ h.IsAnswered

theorem isResponsive_of_fromDirectory {disk : Disk} {directory : CertDirectory}
    {s : RotationSettings} {readers : Readers} {policy : RetryPolicy} {limiter : L}
    (hnew : fromDirectory disk directory s readers policy limiter = .ok r) : r.IsResponsive [] := by
  obtain ⟨notifier, hnotifier, rfl⟩ := of_fromDirectory hnew
  obtain ⟨hhandlers, -⟩ := Notifier.of_new hnotifier
  refine ⟨⟨?_, ?_, _, _, _, Notifier.isTimed_of_new hnotifier⟩, ?_⟩
  · show notifier.handlers.batch = none
    rw [hhandlers]
    rfl
  · show notifier.handlers.change.isSome
    rw [hhandlers]
    rfl
  · rintro ⟨e, he, -⟩
    cases he

/-- A step at which no reload ends, and which loses nothing that is on its way. -/
theorem IsResponsive.goOn (hresponsive : r.IsResponsive h) (hrelay : r'.notifier.IsRelay)
    (hes : ∀ e ∈ es, e.completion? = none)
    (hahead : r.HasReloadAhead ∨ es.HasPush → r'.HasReloadAhead) : r'.IsResponsive (h ++ es) := by
  refine ⟨hrelay, fun hpush => ?_⟩
  by_cases hnew : es.HasPush
  · exact .inl (hahead (.inr hnew))
  · have hold : h.HasPush := (RotatorHistory.hasPush_append.1 hpush).resolve_right hnew
    rcases hresponsive.answered hold with hahead' | hanswered
    · exact .inl (hahead (.inl hahead'))
    · exact .inr (hanswered.append hnew hes)

/-- A step of the notifier, and the signals that it gave. -/
theorem IsResponsive.fired (hresponsive : r.IsResponsive h) {answer : Notifier L × List Delivery}
    {changes : List Change} (hrelays : Notifier.Relays r.notifier answer.1 changes answer.2) :
    (r.fired answer).IsResponsive (h ++ changes.map (.pushed true)) := by
  refine hresponsive.goOn hrelays.relay (List.forall_mem_map.2 fun _ _ => rfl) fun hahead => ?_
  have hscheduled : r.queue.isIdle = false ∨ 0 < Delivery.signals answer.2 →
      (r.fired answer).HasReloadAhead := fun h => .inr (ReloadQueue.isIdle_schedule h)
  rcases hahead with (hwaits | hbusy) | ⟨e, he, -⟩
  · exact (hrelays.waits (.inl hwaits)).elim .inl fun hpos => hscheduled (.inr hpos)
  · exact hscheduled (.inl hbusy)
  · have hne : changes ≠ [] := by
      rintro rfl
      cases he
    exact (hrelays.waits (.inr hne)).elim .inl fun hpos => hscheduled (.inr hpos)

/-- A step that touches neither what the notifier has pending nor the queue. -/
theorem IsResponsive.aside (hresponsive : r.IsResponsive h) {watcher : PathWatcher}
    (hnotifier : r'.notifier = { r.notifier with watcher := watcher }) (hqueue : r'.queue = r.queue)
    (hes : ∀ e ∈ es, e.completion? = none ∧ e.isPush = false) : r'.IsResponsive (h ++ es) := by
  refine hresponsive.goOn ?_ (fun e he => (hes e he).1) ?_
  · rw [hnotifier]
    exact hresponsive.relay.withWatcher watcher
  · rintro ((hwaits | hbusy) | ⟨e, he, hpush⟩)
    · left
      rw [hnotifier]
      exact hwaits
    · right
      rw [hqueue]
      exact hbusy
    · rw [(hes e he).2] at hpush
      cases hpush

/-- **Every step but a stop answers the changes**, if it is inside of a runtime. -/
theorem IsResponsive.moves (hresponsive : r.IsResponsive h) (hmoves : r.Moves es r')
    (hstop : .stopped ∉ es) (hruntime : ∀ change, .pushed false change ∉ es) :
    r'.IsResponsive (h ++ es) := by
  cases hmoves with
  | quiet directory watcher => exact hresponsive.aside rfl rfl (List.forall_mem_nil _)
  | relayed changes hrelays => exact hresponsive.fired (hrelays hresponsive.relay)
  | dropped notifier change => exact absurd (List.mem_singleton_self _) (hruntime change)
  | entered directory watcher count now requester =>
    have hbusy := ReloadQueue.isIdle_enter { r.queue with scheduled := count } now requester
    exact hresponsive.goOn (hresponsive.relay.withWatcher watcher)
      (List.forall_mem_singleton.2 rfl) fun _ => .inr hbusy
  | stopped => exact absurd (List.mem_singleton_self _) hstop
  | listening he =>
    refine hresponsive.aside rfl rfl (List.forall_mem_singleton.2 ?_)
    rcases he with ⟨callback, rfl⟩ | ⟨subscriber, callback, rfl⟩
    · exact ⟨rfl, rfl⟩
    · exact ⟨rfl, rfl⟩
  | paused hrunning directory e due =>
    refine hresponsive.goOn hresponsive.relay (List.forall_mem_singleton.2 rfl) fun _ => .inr ?_
    simp [ReloadQueue.isIdle, ReloadQueue.pause, hrunning]
  | @completed reload _ _ outcome _ _ _ =>
    refine ⟨hresponsive.relay, fun _ => .inr ⟨h, reload, ⟨_, outcome, _⟩, [], rfl, ?_, rfl⟩⟩
    rintro ⟨e, he, -⟩
    cases he

/-- Where no timer lives and no reload is under way, nothing is ahead. -/
theorem IsResponsive.not_hasReloadAhead (hresponsive : r.IsResponsive h)
    (htasks : r.notifier.changes.tasks = []) (hidle : r.queue.isIdle) : ¬ r.HasReloadAhead := by
  rintro (hwaits | hbusy)
  · exact hresponsive.relay.not_waits htasks hwaits
  · rw [hidle] at hbusy
    cases hbusy

end Rotator

open Rotator

namespace LiveRotator

variable {L : Type} [Limiter L] {s : LiveRotator L} {h : RotatorHistory}

theorem isResponsive_of_runs {start : LiveRotator L} (hstart : start.rotator.IsResponsive [])
    (hrun : Runs start h s) (hstop : .stopped ∉ h) (hruntime : ∀ change, .pushed false change ∉ h) :
    s.rotator.IsResponsive h := by
  induction hrun with
  | rest => exact hstart
  | step _ hstep ih =>
    rw [List.mem_append, not_or] at hstop
    have hparts := fun change => not_or.1 fun hmem => hruntime change (List.mem_append.2 hmem)
    exact (ih hstop.1 fun change => (hparts change).1).moves hstep.moves hstop.2
      fun change => (hparts change).2

/-- **No reload is lost, and reloads come one after the other.**

In a run inside of a runtime and without a stop, whatever the limiter answers and however the policy
pauses: as soon as no timer lives and no reload is under way, the last reload that is over made its
last attempt after the last change came in; its outcome is what was assembled in the state at that
attempt, and it is what the rotator shows.

In any run all attempts of one reload come before the first attempt of the next, in the order in
which the reloads came to the queue. -/
theorem answered_of_runs {before disk : Disk} {now : Instant} {directory : CertDirectory}
    {settings : RotationSettings} {readers : Readers} {policy : RetryPolicy} {limiter : L}
    {r : Rotator L}
    (hnew : fromDirectory before directory settings readers policy limiter = .ok r)
    (hrun : Runs ⟨disk, now, r⟩ h s) :
    (.stopped ∉ h → (∀ change, .pushed false change ∉ h) →
        s.rotator.notifier.changes.tasks = [] → s.rotator.queue.isIdle → h.HasPush →
        ∃ (front : RotatorHistory) (t : LiveRotator L) (reload : RunningReload) (c : Completion)
          (rest : RotatorHistory),
          h = front ++ .attempted reload c.outcome (some c) :: rest ∧ ¬ rest.HasPush ∧
            h.completions.getLast? = some c ∧ Runs ⟨disk, now, r⟩ front t ∧
            (t.rotator.directory.assemble t.rotator.readers t.disk).1 = c.outcome ∧
            s.rotator.Shows c.outcome) ∧
      ∃ finished current, h.IsSerial s.rotator.queue finished current := by
  constructor
  · intro hstop hruntime htasks hidle hpush
    have hresponsive :=
      isResponsive_of_runs (isResponsive_of_fromDirectory hnew) hrun hstop hruntime
    have hstill := hresponsive.not_hasReloadAhead htasks hidle
    obtain ⟨front, reload, c, rest, heq, hrest, hnone⟩ :=
      (hresponsive.answered hpush).resolve_left hstill
    have hlast : h.completions.getLast? = some c := by
      rw [heq, RotatorHistory.completions_append, RotatorHistory.completions_cons_attempted, hnone]
      exact List.getLast?_concat ..
    obtain ⟨t, hbefore, -, hassembled⟩ := hrun.of_attempted heq
    exact ⟨front, t, reload, c, rest, heq, hrest, hlast, hbefore, hassembled,
      (keepsBooks_of_runs hnew hrun).shows_last hlast⟩
  · obtain ⟨notifier, -, rfl⟩ := of_fromDirectory hnew
    exact RotatorHistory.isSerial_of_runs rfl hrun

/-- A change comes while a reload is under way; the reload that it asks for waits for its turn, and
answers it. -/
theorem answered_of_waiting : ∃ (directory : CertDirectory) (r : Rotator (Bucket Float))
    (h : RotatorHistory) (s : LiveRotator (Bucket Float)),
    fromDirectory RotatorWorld.threeFiles directory RotatorWorld.prompt RotatorWorld.trustful
        ⟨0, fun _ => 0⟩ (Bucket.new 0 1 0) = .ok r ∧
      Runs ⟨RotatorWorld.threeFiles, 0, r⟩ h s ∧ .stopped ∉ h ∧
      (∀ change, .pushed false change ∉ h) ∧ s.rotator.notifier.changes.tasks = [] ∧
      s.rotator.queue.isIdle ∧ h.HasPush ∧ h.entrants = [.caller, .change] ∧
      (∃ (front : RotatorHistory) (reload : RunningReload) (c : Completion) (rest : RotatorHistory),
        h = front ++ .attempted reload c.outcome (some c) :: rest ∧ ¬ rest.HasPush ∧
          s.rotator.Shows c.outcome) ∧
      ∃ finished current, h.IsSerial s.rotator.queue finished current := by
  obtain ⟨directory, hdirectory⟩ : ∃ directory, CertDirectory.new RotatorWorld.threeFiles
      RotatorWorld.prompt = .ok directory := ⟨_, rfl⟩
  obtain ⟨r, hnew⟩ : ∃ r : Rotator (Bucket Float), fromDirectory RotatorWorld.threeFiles directory
      RotatorWorld.prompt RotatorWorld.trustful ⟨0, fun _ => 0⟩ (Bucket.new 0 1 0) = .ok r := by
    cases hdirectory
    exact ⟨_, rfl⟩
  obtain ⟨s, h, hrun, hstop, hruntime, htasks, hidle, hpush, hentrants⟩ :
      ∃ (s : LiveRotator (Bucket Float)) (h : RotatorHistory),
      Runs ⟨RotatorWorld.threeFiles, 0, r⟩ h s ∧ .stopped ∉ h ∧
        (∀ change, .pushed false change ∉ h) ∧ s.rotator.notifier.changes.tasks = [] ∧
        s.rotator.queue.isIdle ∧ h.HasPush ∧ h.entrants = [.caller, .change] := by
    cases hdirectory
    cases hnew
    refine ⟨_, _, .step (.step (.step (.step (.step (.step .rest .call)
      (.push true (Notifier.changeOf 97))) (.enter rfl)) (.attempt rfl (Nat.le_refl _)))
      (.attempt rfl (Nat.le_refl _))) (.timer List.mem_cons_self (Nat.le_refl _)),
      ?_, ?_, rfl, rfl, ?_, rfl⟩
    · simp
    · simp
    · exact ⟨.pushed true (Notifier.changeOf 97), by simp, rfl⟩
  obtain ⟨hanswered, hserial⟩ := answered_of_runs hnew hrun
  obtain ⟨front, -, reload, c, rest, heq, hrest, -, -, -, hshows⟩ :=
    hanswered hstop hruntime htasks hidle hpush
  exact ⟨directory, r, h, s, hnew, hrun, hstop, hruntime, htasks, hidle, hpush, hentrants,
    ⟨front, reload, c, rest, heq, hrest, hshows⟩, hserial⟩

end LiveRotator

end CertRotation
