import CertRotation.Proofs.Watch.Clock
import Mathlib.Data.List.SplitBy

/-!
# Traffic is cut at its quiet gaps

A limiter for no tokens grants nothing, so all that is delivered is delivered by the timer.  Each
change sets it anew, and it goes off when no change has come for one interval.  So the changes leave
in groups: two that follow one another leave together if and only if the second came before one
interval was over, and a group leaves when one interval has passed since its last change.

* `LiveNotifier.isClose`, `LiveNotifier.isOver` — where traffic is cut, and when a group is over;
* `Notifier.HandsOut` — the calls that hand out a group: one for each root that has changes in it,
  or one signal for all;
* `LiveNotifier.IsCut` — the invariant: the groups that have left, and the one that waits;
* `LiveNotifier.groups_of_runs` — so traffic of every kind is cut.
-/

set_option autoImplicit false

namespace CertRotation

open PendingChanges

theorem Bucket.acquire_of_burst {τ : Type} [Scalar τ] {b : Bucket τ} (h : b.burst = 0)
    (now : Instant) : Limiter.acquire b now = (false, b) := if_pos h

/-! ## The calls for a group -/

namespace Notifier

variable {L : Type} {n : Notifier L} {changes : List Change} {ds : List Delivery}

/-- The changes of a group by their roots: the batches are in ascending order of their roots, each
holds what belongs to its root in the order in which it came, and is called by the root of the first
such change. -/
structure ByRoot (n : Notifier L) (changes : List Change) (batches : PendingChanges) : Prop where
  ascending : batches.Pairwise fun a b => a.1.compare b.1 = .lt
  called : ∀ b ∈ batches, ∃ first rest, b.2 = first :: rest ∧ b.1 = n.rootFor first.path
  content : ∀ b ∈ batches, b.2 = n.filedUnder b.1 changes
  complete : ∀ change ∈ changes, ∃ b ∈ batches, change ∈ b.2

/-- The calls hand out a group of changes: one call for each root, or one signal where there is no
callback for batches. -/
def HandsOut (n : Notifier L) (changes : List Change) (ds : List Delivery) : Prop :=
  match n.handlers.batch, n.handlers.change with
  | some callback, _ => ∃ batches, n.ByRoot changes batches ∧
      ds = batches.map fun b => .batch b.1 b.2 (callback b)
  | none, some callback => ds = [.signal (callback ())]
  | none, none => ds = []

theorem byRoot_fileAll : n.ByRoot changes (n.fileAll changes) where
  ascending := isFiled_fileAll.ascending
  called _ hb := exists_of_mem_fileAll hb
  content _ hb := snd_of_mem_fileAll hb
  complete _ hchange := exists_mem_fileAll hchange

/-- **What is delivered together** is handed out by root. -/
theorem handsOut_deliver : n.HandsOut changes (deliver n.handlers (n.fileAll changes)) := by
  rw [HandsOut, deliver]
  cases n.handlers.batch with
  | some callback =>
    refine ⟨n.fileAll changes, byRoot_fileAll, ?_⟩
    dsimp only
    rw [isFiled_fileAll.filter_eq]
  | none =>
    cases n.handlers.change with
    | some callback => rfl
    | none => rfl

end Notifier

/-! ## The cuts -/

namespace LiveNotifier

variable {τ : Type} {n : Notifier (Bucket τ)} {h es : NotifierHistory}
  {s t : LiveNotifier (Bucket τ)} {closed : List (List (Instant × Change))}
  {waiting : List (Instant × Change)} {interval : Duration} {now : Instant}

/-- Whether a change came before one interval was over since the one before it. -/
def isClose (interval : Duration) (p q : Instant × Change) : Bool := q.1 < p.1 + interval

/-- Whether one interval has passed since the last change of a group. -/
def isOver (interval : Duration) (now : Instant) (group : List (Instant × Change)) : Bool :=
  group.getLast?.all fun last => last.1 + interval ≤ now

/-- When the timer went off, one interval after the last change of a group, the group was handed
out. -/
def LeavesAt (n : Notifier (Bucket τ)) (interval : Duration) (group : List (Instant × Change))
    (firing : Instant × List Delivery) : Prop :=
  (∃ last, group.getLast? = some last ∧ firing.1 = last.1 + interval) ∧
    n.HandsOut (group.map Prod.snd) firing.2

/-- The groups `closed` have left one after the other, and `waiting` waits; nothing else was
delivered. -/
structure IsCut (n : Notifier (Bucket τ)) (h : NotifierHistory)
    (closed : List (List (Instant × Change))) (waiting : List (Instant × Change))
    (s : LiveNotifier (Bucket τ)) : Prop where
  onTime : s.IsOnTime n h
  burst : s.notifier.changes.limiter.burst = 0
  pushes : h.pushes = closed.flatten ++ waiting
  pending : s.notifier.changes.pending = n.fileAll (waiting.map Prod.snd)
  timer : waiting = [] → s.notifier.nextDue? = none
  /-- The groups that have left are cut apart, and so is the one that waits from them. -/
  splits : closed.flatten.splitBy (isClose n.interval) = closed
  apart : ∀ p ∈ closed.flatten.getLast?, ∀ q ∈ waiting.head?, isClose n.interval p q = false
  together : waiting.IsChain fun p q => isClose n.interval p q
  ended : ∀ p ∈ closed.flatten, p.1 + n.interval ≤ s.now
  leaves : List.Forall₂ (LeavesAt n n.interval) closed h.firings
  silent : ∀ e ∈ h, e.1.firedAt? = none → e.2 = []

theorem isCut_of_new [Scalar τ] {disk : Disk} {c : NotifierConfig} {created : Instant}
    (start : Instant) (hburst : c.throttle.burst = 0)
    (hnew : Notifier.new disk c (Bucket.new c.throttle.interval c.throttle.burst created) = .ok n) :
    IsCut n [] [] [] ⟨start, n⟩ := by
  obtain ⟨-, hchanges, herrors, -⟩ := Notifier.of_new hnew
  have honTime := isOnTime_of_new start hnew
  refine ⟨honTime, ?_, rfl, ?_, fun _ => ?_, rfl, nofun, .nil, nofun, .nil, nofun⟩
  · rw [hchanges]
    exact hburst
  · rw [hchanges]
    rfl
  · exact Notifier.nextDue?_of_nil (by rw [hchanges]; rfl) (by rw [herrors]; rfl)

/-- While something waits, what came in last waits. -/
theorem IsCut.getLast?_waiting (hs : s.IsCut n h closed waiting) (hwaiting : waiting ≠ []) :
    waiting.getLast? = h.pushes.getLast? := by
  rw [hs.pushes, List.getLast?_append_of_ne_nil _ hwaiting]

/-- As long as no timer is due, the interval after the last change that waits is not over. -/
theorem IsCut.lt_of_isIdle (hs : s.IsCut n h closed waiting) (hidle : s.IsIdle)
    (hmillis : nanosPerMilli ∣ n.interval) (hwhole : ∀ p ∈ h.pushes, nanosPerMilli ∣ p.1) :
    ∀ last ∈ waiting.getLast?, s.now < last.1 + n.interval := by
  intro last hlast
  have hwaiting : waiting ≠ [] := by
    rintro rfl
    cases hlast
  rcases hs.onTime.cases_nextDue? with ⟨-, hnil⟩ | ⟨task, came, -, hnext, hcame, hdue⟩
  · rw [hs.pending, Notifier.fileAll_eq_nil_iff, List.map_eq_nil_iff] at hnil
    exact absurd hnil hwaiting
  · rw [hs.getLast?_waiting hwaiting, hcame] at hlast
    obtain rfl := Option.some.inj hlast
    rw [← Instant.deadline_eq (hwhole came (List.mem_of_getLast? hcame)) hmillis, ← hdue]
    exact hidle _ hnext

/-- The groups are those that have left, and the one that waits. -/
theorem IsCut.splitBy_pushes (hs : s.IsCut n h closed waiting) :
    h.pushes.splitBy (isClose n.interval) = closed ++ waiting.splitBy (isClose n.interval) := by
  rw [hs.pushes, List.splitBy_append hs.apart, hs.splits]

/-- The groups that have left are over. -/
theorem IsCut.isOver_eq_true (hs : s.IsCut n h closed waiting) :
    ∀ group ∈ closed, isOver n.interval s.now group = true := by
  intro group hgroup
  rw [isOver, Option.all_eq_true]
  intro last hlast
  have hmem : last ∈ closed.flatten :=
    List.mem_flatten.2 ⟨group, hgroup, List.mem_of_getLast? hlast⟩
  exact decide_eq_true (hs.ended last hmem)

/-- As long as no timer is due, the group that waits is not over. -/
theorem IsCut.isOver_eq_false (hs : s.IsCut n h closed waiting) (hidle : s.IsIdle)
    (hmillis : nanosPerMilli ∣ n.interval) (hwhole : ∀ p ∈ h.pushes, nanosPerMilli ∣ p.1) :
    ∀ group ∈ waiting.splitBy (isClose n.interval), isOver n.interval s.now group = false := by
  intro group hgroup
  have hwaiting : waiting ≠ [] := by
    rintro rfl
    cases hgroup
  rw [List.splitBy_of_isChain hwaiting hs.together, List.mem_singleton] at hgroup
  have hlast := List.getLast?_eq_some_getLast hwaiting
  have hlt := hs.lt_of_isIdle hidle hmillis hwhole _ hlast
  rw [hgroup, isOver, hlast]
  exact decide_eq_false (Nat.not_le_of_lt hlt)

variable [Scalar τ]

/-- A change that comes in joins what waits. -/
theorem IsCut.push (hs : s.IsCut n h closed waiting) (hidle : s.IsIdle)
    (hmillis : nanosPerMilli ∣ n.interval) (hwhole : ∀ p ∈ h.pushes, nanosPerMilli ∣ p.1)
    (change : Change) :
    IsCut n (h ++ [(.push s.now true change, (s.notifier.pushChange s.now true change).2)]) closed
      (waiting ++ [(s.now, change)])
      { s with notifier := (s.notifier.pushChange s.now true change).1 } := by
  have hstep : Step true s _ _ := .push change fun _ => hidle
  have honTime := hs.onTime.step hstep
  have hanswer := Bucket.acquire_of_burst hs.burst s.now
  have heq := Notifier.pushChange_eq hs.onTime.timed.filed s.now change hanswer
  have hlast := hs.lt_of_isIdle hidle hmillis hwhole
  refine ⟨honTime, ?_, ?_, ?_, ?_, hs.splits, fun p hp q hq => ?_, ?_, hs.ended, ?_, ?_⟩
  · rw [heq]
    exact hs.burst
  · rw [NotifierHistory.pushes_push, hs.pushes, List.append_assoc]
  · rw [heq, List.map_append, List.map_singleton, Notifier.fileAll_concat, ← hs.pending,
      ← Notifier.rootFor_congr hs.onTime.roots]
    rfl
  · intro hnil
    exact absurd hnil (List.append_ne_nil_of_right_ne_nil _ (List.cons_ne_nil _ _))
  · cases waiting with
    | nil =>
      cases hq
      exact decide_eq_false (Nat.not_lt_of_le (hs.ended p (List.mem_of_getLast? hp)))
    | cons first rest => exact hs.apart p hp q hq
  · rw [List.isChain_append]
    refine ⟨hs.together, List.isChain_singleton _, fun p hp q hq => ?_⟩
    cases hq
    exact decide_eq_true (hlast p hp)
  · rw [NotifierHistory.firings_push]
    exact hs.leaves
  · intro e he hnone
    rcases List.mem_append.1 he with he | he
    · exact hs.silent e he hnone
    · rw [List.mem_singleton.1 he, heq]
      rfl

/-- The timer goes off and what waits leaves. -/
theorem IsCut.fire (hs : s.IsCut n h closed waiting) (hdue : ¬ s.IsIdle)
    (hmillis : nanosPerMilli ∣ n.interval) (hwhole : ∀ p ∈ h.pushes, nanosPerMilli ∣ p.1) :
    IsCut n (h ++ [(.advance s.now, (s.notifier.fireDue s.now).2)]) (closed ++ [waiting]) []
      { s with notifier := (s.notifier.fireDue s.now).1 } := by
  have hstep : Step true s _ _ := .fire hdue
  have honTime := hs.onTime.step hstep
  obtain ⟨came, hcame, hnow, heq⟩ := hs.onTime.fire_eq hdue
  rw [Instant.deadline_eq (hwhole came (List.mem_of_getLast? hcame)) hmillis] at hnow
  have hwaiting : waiting ≠ [] := fun hnil => hdue (isIdle_of_none (hs.timer hnil))
  have hflatten : (closed ++ [waiting]).flatten = closed.flatten ++ waiting := by
    rw [List.flatten_append, List.flatten_singleton]
  refine ⟨honTime, ?_, ?_, ?_, fun _ => ?_, ?_, by simp, .nil, fun p hp => ?_, ?_, ?_⟩
  · rw [heq]
    exact hs.burst
  · rw [NotifierHistory.pushes_advance, hflatten, hs.pushes, List.append_nil]
  · rw [heq]
    rfl
  · rw [heq]
    exact Notifier.nextDue?_of_nil rfl hs.onTime.errors
  · rw [hflatten, List.splitBy_append hs.apart, hs.splits,
      List.splitBy_of_isChain hwaiting hs.together]
  · rw [hflatten, ← hs.pushes] at hp
    rw [hnow]
    exact Nat.add_le_add_right (hs.onTime.le_last hcame p hp) _
  · have hcalls : (s.notifier.fireDue s.now).2 =
        Notifier.deliver n.handlers (n.fileAll (waiting.map Prod.snd)) := by
      have hne : (n.fileAll (waiting.map Prod.snd)).isEmpty = false := by
        rw [List.isEmpty_eq_false_iff, Ne, Notifier.fileAll_eq_nil_iff, List.map_eq_nil_iff]
        exact hwaiting
      rw [heq, hs.pending, hs.onTime.handlers, hne]
      rfl
    have hleaves : LeavesAt n n.interval waiting (s.now, (s.notifier.fireDue s.now).2) := by
      refine ⟨⟨came, by rw [hs.getLast?_waiting hwaiting, hcame], hnow⟩, ?_⟩
      rw [hcalls]
      exact Notifier.handsOut_deliver
    rw [NotifierHistory.firings_advance]
    exact List.rel_append hs.leaves (.cons hleaves .nil)
  · intro e he hnone
    rcases List.mem_append.1 he with he | he
    · exact hs.silent e he hnone
    · rw [List.mem_singleton.1 he] at hnone
      cases hnone

/-- **Every step of a prompt run keeps the cuts.** -/
theorem IsCut.step (hs : s.IsCut n h closed waiting) (hmillis : nanosPerMilli ∣ n.interval)
    (hwhole : ∀ p ∈ h.pushes, nanosPerMilli ∣ p.1) (hstep : Step true s es t) :
    ∃ closed' waiting', t.IsCut n (h ++ es) closed' waiting' := by
  have honTime := hs.onTime.step hstep
  cases hstep with
  | wait now hnow hdue =>
    rw [List.append_nil] at honTime ⊢
    exact ⟨closed, waiting, honTime, hs.burst, hs.pushes, hs.pending, hs.timer, hs.splits, hs.apart,
      hs.together, fun p hp => Nat.le_trans (hs.ended p hp) hnow, hs.leaves, hs.silent⟩
  | push change hready => exact ⟨_, _, hs.push (hready rfl) hmillis hwhole change⟩
  | fire hdue => exact ⟨_, _, hs.fire hdue hmillis hwhole⟩

/-- **Traffic is cut at its quiet gaps.**  Whenever no timer is due, the groups that are over have
left one after the other, each when one interval had passed since its last change and by root; the
group that is not over is pending; and there were no other calls.  Changes may come at any instants
that follow one another. -/
theorem groups_of_runs {disk : Disk} {c : NotifierConfig} {created start : Instant}
    (hnew : Notifier.new disk c (Bucket.new c.throttle.interval c.throttle.burst created) = .ok n)
    (hburst : c.throttle.burst = 0) (hmillis : nanosPerMilli ∣ c.throttle.interval) :
    (∀ (pushes : List (Instant × Change)) (now : Instant),
      pushes.Pairwise (fun p q => p.1 ≤ q.1) → (∀ p ∈ pushes, start ≤ p.1 ∧ p.1 ≤ now) →
        start ≤ now → ∃ h s, Runs true ⟨start, n⟩ h s ∧ h.pushes = pushes ∧ s.now = now ∧ s.IsIdle) ∧
    ∀ h s, Runs true ⟨start, n⟩ h s → s.IsIdle → (∀ p ∈ h.pushes, nanosPerMilli ∣ p.1) →
      let groups := h.pushes.splitBy (isClose c.throttle.interval)
      List.Forall₂ (LeavesAt n c.throttle.interval)
          (groups.filter (isOver c.throttle.interval s.now)) h.firings ∧
        s.notifier.changes.pending = n.fileAll
          ((groups.filter fun group => !isOver c.throttle.interval s.now group).flatten.map
            Prod.snd) ∧
        ∀ e ∈ h, e.1.firedAt? = none → e.2 = [] := by
  refine ⟨fun pushes now hsorted hwithin hnow => ?_, fun h s hrun hidle hwhole => ?_⟩
  · exact exists_runs_of_pairwise hnew hsorted (fun p hp => (hwithin p hp).1) hnow
      fun p hp => (hwithin p hp).2
  · rw [← Notifier.interval_of_new hnew] at hmillis ⊢
    obtain ⟨closed, waiting, hcut⟩ : ∃ closed waiting, s.IsCut n h closed waiting := by
      clear hidle
      induction hrun with
      | rest => exact ⟨[], [], isCut_of_new start hburst hnew⟩
      | step _ hstep ih =>
        rw [NotifierHistory.pushes_append, List.forall_mem_append] at hwhole
        obtain ⟨closed, waiting, hcut⟩ := ih hwhole.1
        exact hcut.step hmillis hwhole.1 hstep
    have hclosed := hcut.isOver_eq_true
    have hopen := hcut.isOver_eq_false hidle hmillis hwhole
    dsimp only
    rw [hcut.splitBy_pushes, List.filter_append, List.filter_append, List.filter_eq_self.2 hclosed,
      List.filter_eq_nil_iff.2 fun group hgroup => by simp [hopen group hgroup],
      List.filter_eq_nil_iff.2 fun group hgroup => by simp [hclosed group hgroup],
      List.filter_eq_self.2 fun group hgroup => by simp [hopen group hgroup],
      List.append_nil, List.nil_append, List.flatten_splitBy]
    exact ⟨hcut.leaves, hcut.pending, hcut.silent⟩

/-- A notifier for a directory that delivers ten milliseconds after the last change. -/
def patient : NotifierConfig := { Notifier.panicking with throttle := ⟨Duration.ofMillis 10, 0⟩ }

/-- Two changes leave together, and the third came just when their interval was over. -/
theorem groups_of_boundary : ∃ (n : Notifier (Bucket Float)) (h : NotifierHistory)
    (s : LiveNotifier (Bucket Float)),
    Notifier.new Notifier.emptyDirectory patient
        (Bucket.new patient.throttle.interval patient.throttle.burst 0) = .ok n ∧
      Runs true ⟨0, n⟩ h s ∧ s.now = Duration.ofMillis 20 ∧ s.IsIdle ∧
      h.pushes = [(0, Notifier.changeOf 97), (Duration.ofMillis 5, Notifier.changeOf 98),
        (Duration.ofMillis 15, Notifier.changeOf 99)] ∧
      (∃ ds, h.firings = [(Duration.ofMillis 15, ds)] ∧
        n.HandsOut [Notifier.changeOf 97, Notifier.changeOf 98] ds) ∧
      s.notifier.changes.pending = [(⟨[47, 114]⟩, [Notifier.changeOf 99])] := by
  obtain ⟨n, hnew⟩ : ∃ n : Notifier (Bucket Float), Notifier.new Notifier.emptyDirectory patient
      (Bucket.new patient.throttle.interval patient.throttle.burst 0) = .ok n := ⟨_, rfl⟩
  have hmillis : nanosPerMilli ∣ patient.throttle.interval := by decide
  obtain ⟨h, s, hrun, hpushes, hnow, hidle⟩ : ∃ h s, Runs true ⟨0, n⟩ h s ∧
      h.pushes = [(0, Notifier.changeOf 97), (Duration.ofMillis 5, Notifier.changeOf 98),
        (Duration.ofMillis 15, Notifier.changeOf 99)] ∧ s.now = Duration.ofMillis 20 ∧ s.IsIdle :=
    (groups_of_runs hnew rfl hmillis).1 _ _ (by decide) (by decide) (by decide)
  obtain ⟨hleaves, hpending, -⟩ := (groups_of_runs hnew rfl hmillis).2 h s hrun hidle
    (by rw [hpushes]; decide)
  rw [hpushes, hnow] at hleaves hpending
  refine ⟨n, h, s, hnew, hrun, hnow, hidle, hpushes, ?_, ?_⟩
  · obtain ⟨⟨now, ds⟩, rest, ⟨⟨last, hlast, htime⟩, hds⟩, hrest, hfirings⟩ :=
      List.forall₂_cons_left_iff.1 hleaves
    cases hrest
    cases hlast
    cases htime
    exact ⟨ds, hfirings, hds⟩
  · rw [hpending]
    cases hnew
    rfl

end LiveNotifier

end CertRotation
