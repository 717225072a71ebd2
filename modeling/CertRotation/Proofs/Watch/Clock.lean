import CertRotation.Proofs.Watch.Timers

/-!
# Notifiers in time

Changes come to a notifier while a clock runs, and the clock stops at every instant at which a timer
goes off.  As at most one timer of the changes lives, what a step does can be said exactly: a change
that comes in is filed and leaves at once where the limiter grants it, and the timer that goes off
takes along all that is pending.

* `Notifier.fileAll`, `Notifier.mem_fileAll` — the batches that some changes make;
* `Notifier.pushChange_eq`, `Notifier.IsTimed.fireDue_eq` — what the two steps do;
* `LiveNotifier.Step`, `LiveNotifier.Runs` — a notifier and a clock, and what may happen to them;
* `LiveNotifier.IsOnTime`, `LiveNotifier.isOnTime_of_runs` — the clock never passes a timer, and
  the only one that lives goes off one interval after the last change;
* `LiveNotifier.IsOnTime.exists_runs`, `LiveNotifier.exists_runs_of_pairwise` — the clock can go on
  to any later instant, and changes may come at any.
-/

set_option autoImplicit false

namespace CertRotation

/-! ## What is filed -/

namespace PendingChanges

variable {pending : PendingChanges} {root : Path} {change : Change} {b : Path × List Change}

theorem file_ne_nil (pending : PendingChanges) (root : Path) (change : Change) :
    pending.file root change ≠ [] := by
  cases pending with
  | nil => exact List.cons_ne_nil _ _
  | cons first rest =>
    rw [file]
    split
    · exact List.cons_ne_nil _ _
    · exact List.cons_ne_nil _ _
    · exact List.cons_ne_nil _ _

/-- Under the root of a batch there is the batch and nothing else. -/
theorem under_of_mem (h : pending.IsFiled) (hb : b ∈ pending) : under b.1 pending = b.2 := by
  obtain ⟨front, rest, rfl⟩ := List.append_of_mem hb
  obtain ⟨-, hrest, hfront⟩ := List.pairwise_append.1 h.ascending
  have hfront : ∀ a ∈ front, ¬ a.1.same b.1 := fun a ha =>
    Path.not_same_of_lt (hfront a ha b List.mem_cons_self)
  have hbelow : under b.1 front = [] := under_eq_nil hfront
  have habove : under b.1 rest = [] :=
    under_eq_nil_of_lt (List.pairwise_cons.1 hrest).1 (Path.same_refl _)
  rw [under_append, under_cons, hbelow, habove, if_pos (Path.same_refl _), List.append_nil,
    List.nil_append]

end PendingChanges

open PendingChanges

namespace Notifier

variable {L : Type} {n m : Notifier L} {changes : List Change} {change : Change} {r : Path}

/-- The batches that some changes make, filed one after the other. -/
def fileAll (n : Notifier L) (changes : List Change) : PendingChanges :=
  changes.foldl (fun pending change => pending.file (n.rootFor change.path) change) []

@[simp] theorem fileAll_nil : n.fileAll [] = [] := rfl

theorem fileAll_concat : n.fileAll (changes ++ [change]) =
    (n.fileAll changes).file (n.rootFor change.path) change := List.foldl_concat ..

theorem isFiled_fileAll : (n.fileAll changes).IsFiled := by
  induction changes using List.reverseRecOn with
  | nil => exact isFiled_nil
  | append_singleton changes change ih =>
    rw [fileAll_concat]
    exact ih.file

theorem under_fileAll : under r (n.fileAll changes) = n.filedUnder r changes := by
  induction changes using List.reverseRecOn with
  | nil => rfl
  | append_singleton changes change ih =>
    rw [fileAll_concat, under_file isFiled_fileAll, ih, filedUnder_append]
    congr 1
    rw [filedUnder, List.filter_singleton, cond_eq_ite]

/-- A batch is called by the root of its first change. -/
theorem exists_of_mem_fileAll {b : Path × List Change} (hb : b ∈ n.fileAll changes) :
    ∃ first rest, b.2 = first :: rest ∧ b.1 = n.rootFor first.path := by
  induction changes using List.reverseRecOn generalizing b with
  | nil => cases hb
  | append_singleton changes change ih =>
    rw [fileAll_concat] at hb
    rcases mem_file hb with rfl | hb | ⟨old, hold, rfl⟩
    · exact ⟨change, [], rfl, rfl⟩
    · exact ih hb
    · obtain ⟨first, rest, hchanges, hroot⟩ := ih hold
      exact ⟨first, rest ++ [change], by rw [hchanges, List.cons_append], hroot⟩

/-- **What is in a batch** is what belongs to its root. -/
theorem snd_of_mem_fileAll {b : Path × List Change} (hb : b ∈ n.fileAll changes) :
    b.2 = n.filedUnder b.1 changes := by
  rw [← under_fileAll, under_of_mem isFiled_fileAll hb]

/-- Every change is in a batch. -/
theorem exists_mem_fileAll (hchange : change ∈ changes) :
    ∃ b ∈ n.fileAll changes, change ∈ b.2 := by
  have hmem : change ∈ under (n.rootFor change.path) (n.fileAll changes) := by
    rw [under_fileAll]
    exact List.mem_filter.2 ⟨hchange, Path.same_refl _⟩
  obtain ⟨b, hb, hin⟩ := List.mem_flatMap.1 hmem
  exact ⟨b, (List.mem_filter.1 hb).1, hin⟩

theorem fileAll_eq_nil_iff : n.fileAll changes = [] ↔ changes = [] := by
  constructor
  · intro hnil
    refine List.eq_nil_iff_forall_not_mem.2 fun change hchange => ?_
    obtain ⟨b, hb, -⟩ := exists_mem_fileAll (n := n) hchange
    rw [hnil] at hb
    cases hb
  · rintro rfl
    rfl

/-! ## What a step does -/

variable {delay : Duration} {changed failed : Option Instant} {task : TimerTask}

/-- A flush of what is filed. -/
theorem flushChanges_of_isFiled (h : n.changes.pending.IsFiled) :
    n.flushChanges = ({ n with changes := { n.changes with pending := [] } },
      if n.changes.pending.isEmpty then [] else deliver n.handlers n.changes.pending) := by
  refine Prod.ext (fst_flushChanges h) ?_
  rw [flushChanges]
  cases hpending : n.changes.pending with
  | nil => rfl
  | cons b rest =>
    have hb : ¬ ((b :: rest).all fun b => b.2.isEmpty) := by
      intro hall
      refine h.ne_nil b (by rw [hpending]; exact List.mem_cons_self) ?_
      exact List.isEmpty_iff.1 (List.all_eq_true.1 hall b List.mem_cons_self)
    rw [if_neg hb]
    rfl

/-- **What a change that comes in does** where timers run. -/
theorem pushChange_eq [Limiter L] (h : n.changes.pending.IsFiled) (now : Instant)
    (change : Change) {granted : Bool} {limiter : L}
    (hacquire : Limiter.acquire n.changes.limiter now = (granted, limiter)) :
    n.pushChange now true change =
      let filed := n.changes.pending.file (n.rootFor change.path) change
      ({ n with changes := Lane.arm { n.changes with
          pending := if granted then [] else filed
          limiter := limiter } now n.interval },
        if granted then deliver n.handlers filed else []) := by
  rw [pushChange, Lane.acquire]
  dsimp only
  rw [hacquire]
  cases granted with
  | false => rfl
  | true =>
    have hflush := flushChanges_of_isFiled (n := { n with changes := { n.changes with
      pending := n.changes.pending.file (n.rootFor change.path) change
      limiter := limiter } }) h.file
    have hne := List.isEmpty_eq_false_iff.2 (file_ne_nil n.changes.pending
      (n.rootFor change.path) change)
    dsimp only at hflush ⊢
    rw [if_pos rfl, hflush, hne]
    rfl

theorem pending_pushChange [Limiter L] (change : Change) (h : n.changes.pending.IsFiled)
    {now : Instant} {granted : Bool} {limiter : L}
    (hacquire : Limiter.acquire n.changes.limiter now = (granted, limiter)) :
    (n.pushChange now true change).1.changes.pending =
      if granted then [] else n.changes.pending.file (n.rootFor change.path) change := by
  rw [pushChange_eq h now change hacquire]
  rfl

theorem limiter_pushChange [Limiter L] (change : Change) (h : n.changes.pending.IsFiled)
    {now : Instant} {granted : Bool} {limiter : L}
    (hacquire : Limiter.acquire n.changes.limiter now = (granted, limiter)) :
    (n.pushChange now true change).1.changes.limiter = limiter := by
  rw [pushChange_eq h now change hacquire]
  rfl

/-- The only timer of the changes goes off and takes along what is pending. -/
theorem IsTimed.fireChanges_eq (h : n.IsTimed delay changed failed)
    (htasks : n.changes.tasks = [task]) :
    n.fireChanges task =
      ({ n with changes := { n.changes with tasks := [], pending := [] } },
        if n.changes.pending.isEmpty then [] else deliver n.handlers n.changes.pending) := by
  have hcurrent : n.changes.isCurrent task = true := by
    refine decide_eq_true (h.changes.generation task ?_).1
    rw [htasks]
    exact List.mem_singleton_self _
  have hfinish : (n.changes.finish task).tasks = [] := by
    rw [Lane.finish, htasks]
    simp
  have hflush := flushChanges_of_isFiled (n := { n with changes := n.changes.finish task }) h.filed
  rw [Notifier.fireChanges, hcurrent, if_pos rfl, hflush]
  dsimp only
  rw [hfinish]
  rfl

/-- Where no other timer lives, that is all that happens. -/
theorem IsTimed.fireDue_eq (h : n.IsTimed delay changed failed) (htasks : n.changes.tasks = [task])
    (herrors : n.errors.tasks = []) {now : Instant} (hdue : task.due ≤ now) :
    n.fireDue now =
      ({ n with changes := { n.changes with tasks := [], pending := [] } },
        if n.changes.pending.isEmpty then [] else deliver n.handlers n.changes.pending) := by
  have hone : dueBy now n.changes.tasks = [task] := by
    rw [dueBy, htasks, List.filter_singleton, decide_eq_true hdue]
    exact List.mergeSort_singleton _
  have hnone : dueBy now n.errors.tasks = [] := by
    rw [dueBy, herrors]
    exact List.mergeSort_nil
  simp only [Notifier.fireDue, hone, hnone, Notifier.steps, h.fireChanges_eq htasks,
    List.append_nil]

end Notifier

/-! ## A notifier and a clock -/

theorem Lane.IsTimed.cases_tasks {L ι : Type} {lane : Lane L (List ι)} {delay : Duration}
    {pushed : Option Instant} (h : lane.IsTimed delay pushed) :
    lane.tasks = [] ∧ lane.pending = [] ∨
      ∃ task came, lane.tasks = [task] ∧ pushed = some came ∧
        task.due = Instant.deadline came delay := by
  rcases htasks : lane.tasks with _ | ⟨task, rest⟩
  · exact .inl ⟨rfl, h.pending htasks⟩
  · have hrest : rest = [] := by
      have hlength := h.length_le_one
      rw [htasks, List.length_cons] at hlength
      exact List.eq_nil_of_length_eq_zero (by omega)
    obtain ⟨came, hpushed, hdue⟩ := h.due task (by rw [htasks]; exact List.mem_cons_self)
    exact .inr ⟨task, came, by rw [hrest], hpushed, hdue⟩

namespace NotifierAct

/-- The change that came in where timers run, and when it came. -/
def push? : NotifierAct → Option (Instant × Change)
  | push now true change => some (now, change)
  | _ => none

/-- When timers went off. -/
def firedAt? : NotifierAct → Option Instant
  | advance now => some now
  | _ => none

end NotifierAct

namespace NotifierHistory

variable {h rest : NotifierHistory}

/-- The changes that came in where timers run, each with the instant at which it came. -/
def pushes (h : NotifierHistory) : List (Instant × Change) := h.filterMap fun e => e.1.push?

/-- The instants at which timers went off, each with the calls that were made then. -/
def firings (h : NotifierHistory) : List (Instant × List Delivery) :=
  h.filterMap fun e => e.1.firedAt?.map fun now => (now, e.2)

theorem pushes_append : pushes (h ++ rest) = h.pushes ++ rest.pushes := List.filterMap_append ..

theorem firings_append : firings (h ++ rest) = h.firings ++ rest.firings := List.filterMap_append ..

theorem pushes_push (now : Instant) (change : Change) (ds : List Delivery) :
    pushes (h ++ [(.push now true change, ds)]) = h.pushes ++ [(now, change)] := pushes_append

theorem pushes_advance (now : Instant) (ds : List Delivery) :
    pushes (h ++ [(.advance now, ds)]) = h.pushes := pushes_append.trans (List.append_nil _)

theorem firings_push (now : Instant) (runtime : Bool) (change : Change) (ds : List Delivery) :
    firings (h ++ [(.push now runtime change, ds)]) = h.firings :=
  firings_append.trans (List.append_nil _)

theorem firings_advance (now : Instant) (ds : List Delivery) :
    firings (h ++ [(.advance now, ds)]) = h.firings ++ [(now, ds)] := firings_append

end NotifierHistory

/-- A notifier, and the instant that its clock shows. -/
structure LiveNotifier (L : Type) where
  now : Instant
  notifier : Notifier L

namespace Notifier

variable {L : Type} {n : Notifier L}

theorem nextDue?_of_nil (htasks : n.changes.tasks = []) (herrors : n.errors.tasks = []) :
    n.nextDue? = none := by
  rw [nextDue?, Lane.nextDue?, Lane.nextDue?, htasks, herrors]
  rfl

theorem nextDue?_of_singleton {task : TimerTask} (htasks : n.changes.tasks = [task])
    (herrors : n.errors.tasks = []) : n.nextDue? = some task.due := by
  rw [nextDue?, Lane.nextDue?, Lane.nextDue?, htasks, herrors]
  rfl

end Notifier

namespace LiveNotifier

variable {L : Type} {n : Notifier L} {h es : NotifierHistory} {s t : LiveNotifier L}
  {prompt : Bool}

/-- No timer is due. -/
def IsIdle (s : LiveNotifier L) : Prop := ∀ due ∈ s.notifier.nextDue?, s.now < due

/-- Where no timer lives, none is due. -/
theorem isIdle_of_none (hnone : s.notifier.nextDue? = none) : s.IsIdle := by
  intro due hdue
  rw [hnone] at hdue
  cases hdue

/-- What may happen, with what it adds to the history: the clock goes on, but not past a timer; a
change comes in; the timers go off that are due.  In a prompt run they do so before a change comes
in. -/
inductive Step [Limiter L] (prompt : Bool) (s : LiveNotifier L) :
    NotifierHistory → LiveNotifier L → Prop
  | wait (now : Instant) (hnow : s.now ≤ now) (hdue : ∀ due ∈ s.notifier.nextDue?, now ≤ due) :
      Step prompt s [] { s with now := now }
  | push (change : Change) (hready : prompt → s.IsIdle) :
      Step prompt s [(.push s.now true change, (s.notifier.pushChange s.now true change).2)]
        { s with notifier := (s.notifier.pushChange s.now true change).1 }
  | fire (hdue : ¬ s.IsIdle) :
      Step prompt s [(.advance s.now, (s.notifier.fireDue s.now).2)]
        { s with notifier := (s.notifier.fireDue s.now).1 }

/-- From `s` a history may lead to a state. -/
inductive Runs [Limiter L] (prompt : Bool) (s : LiveNotifier L) :
    NotifierHistory → LiveNotifier L → Prop
  | rest : Runs prompt s [] s
  | step {h es : NotifierHistory} {t u : LiveNotifier L} (hrun : Runs prompt s h t)
      (hstep : Step prompt t es u) : Runs prompt s (h ++ es) u

/-- The clock has not passed a timer, and the only one that lives goes off one interval after the
last change came in; the notifier started as `n`. -/
structure IsOnTime (n : Notifier L) (h : NotifierHistory) (s : LiveNotifier L) : Prop where
  roots : s.notifier.roots = n.roots
  handlers : s.notifier.handlers = n.handlers
  timed : s.notifier.IsTimed n.interval (h.pushes.getLast?.map Prod.fst) none
  errors : s.notifier.errors.tasks = []
  past : ∀ p ∈ h.pushes, p.1 ≤ s.now
  sorted : h.pushes.Pairwise fun p q => p.1 ≤ q.1
  ahead : ∀ due ∈ s.notifier.nextDue?, s.now ≤ due

/-- No timer lives and nothing is pending, or one does, for the last change. -/
theorem IsOnTime.cases_nextDue? (hs : s.IsOnTime n h) :
    s.notifier.nextDue? = none ∧ s.notifier.changes.pending = [] ∨
      ∃ task came, s.notifier.changes.tasks = [task] ∧ s.notifier.nextDue? = some task.due ∧
        h.pushes.getLast? = some came ∧ task.due = Instant.deadline came.1 n.interval := by
  rcases hs.timed.changes.cases_tasks with ⟨htasks, hpending⟩ | ⟨task, now, htasks, hlast, hdue⟩
  · exact .inl ⟨Notifier.nextDue?_of_nil htasks hs.errors, hpending⟩
  · obtain ⟨came, hcame, rfl⟩ := Option.map_eq_some_iff.1 hlast
    exact .inr ⟨task, came, htasks, Notifier.nextDue?_of_singleton htasks hs.errors, hcame, hdue⟩

/-- **When a timer is due**, its interval is over to the instant, and it takes along all that is
pending. -/
theorem IsOnTime.fire_eq (hs : s.IsOnTime n h) (hdue : ¬ s.IsIdle) :
    ∃ came, h.pushes.getLast? = some came ∧ s.now = Instant.deadline came.1 n.interval ∧
      s.notifier.fireDue s.now =
        ({ s.notifier with changes := { s.notifier.changes with tasks := [], pending := [] } },
          if s.notifier.changes.pending.isEmpty then []
          else Notifier.deliver s.notifier.handlers s.notifier.changes.pending) := by
  rcases hs.cases_nextDue? with ⟨hnone, -⟩ | ⟨task, came, htasks, hnext, hcame, htask⟩
  · exact absurd (isIdle_of_none hnone) hdue
  · have hle : task.due ≤ s.now := by
      refine Nat.le_of_not_lt fun hlt => hdue fun due hmem => ?_
      rw [hnext] at hmem
      cases hmem
      exact hlt
    have hge : s.now ≤ task.due := hs.ahead _ hnext
    refine ⟨came, hcame, ?_, hs.timed.fireDue_eq htasks hs.errors hle⟩
    rw [← htask]
    exact Nat.le_antisymm hge hle

/-- No change came after the last one. -/
theorem IsOnTime.le_last (hs : s.IsOnTime n h) {last : Instant × Change}
    (hlast : h.pushes.getLast? = some last) : ∀ p ∈ h.pushes, p.1 ≤ last.1 := by
  obtain ⟨front, heq⟩ := List.getLast?_eq_some_iff.1 hlast
  have hsorted := hs.sorted
  rw [heq, List.pairwise_append] at hsorted
  intro p hp
  rw [heq, List.mem_append, List.mem_singleton] at hp
  rcases hp with hp | rfl
  · exact hsorted.2.2 p hp last (List.mem_singleton_self last)
  · exact Nat.le_refl _

theorem isOnTime_of_new {disk : Disk} {c : NotifierConfig} {limiter : L} (start : Instant)
    (hnew : Notifier.new disk c limiter = .ok n) : IsOnTime n [] ⟨start, n⟩ := by
  obtain ⟨-, hchanges, herrors, -⟩ := Notifier.of_new hnew
  have htimed := Notifier.isTimed_of_new hnew
  rw [← Notifier.interval_of_new hnew] at htimed
  have hnone : n.nextDue? = none :=
    Notifier.nextDue?_of_nil (by rw [hchanges]; rfl) (by rw [herrors]; rfl)
  refine ⟨rfl, rfl, htimed, by rw [herrors]; rfl, nofun, .nil, ?_⟩
  rw [hnone]
  nofun

variable [Limiter L]

/-- **Every step is on time.** -/
theorem IsOnTime.step (hs : s.IsOnTime n h) (hstep : Step prompt s es t) :
    t.IsOnTime n (h ++ es) := by
  cases hstep with
  | wait now hnow hdue =>
    rw [List.append_nil]
    exact ⟨hs.roots, hs.handlers, hs.timed, hs.errors,
      fun p hp => Nat.le_trans (hs.past p hp) hnow, hs.sorted, hdue⟩
  | push change hready =>
    have hpushed := hs.timed.pushChange s.now true change
    have heq := Notifier.pushChange_eq hs.timed.filed s.now change rfl
    have hlast : ((h.pushes ++ [(s.now, change)]).getLast?.map Prod.fst) = some s.now := by
      rw [List.getLast?_concat]
      rfl
    have herrors : (s.notifier.pushChange s.now true change).1.errors.tasks = [] := by
      rw [heq]
      exact hs.errors
    refine ⟨?_, ?_, ?_, herrors, fun p hp => ?_, ?_, fun due hmem => ?_⟩
    · rw [heq]
      exact hs.roots
    · rw [heq]
      exact hs.handlers
    · rw [NotifierHistory.pushes_push, hlast]
      exact hpushed
    · rw [NotifierHistory.pushes_push, List.mem_append, List.mem_singleton] at hp
      rcases hp with hp | rfl
      · exact hs.past p hp
      · exact Nat.le_refl _
    · rw [NotifierHistory.pushes_push, List.pairwise_append]
      exact ⟨hs.sorted, List.pairwise_singleton _ _,
        fun p hp q hq => List.mem_singleton.1 hq ▸ hs.past p hp⟩
    · rcases hpushed.changes.cases_tasks with ⟨htasks, -⟩ | ⟨task, came, htasks, hcame, hdue⟩
      · rw [Notifier.nextDue?_of_nil htasks herrors] at hmem
        cases hmem
      · rw [Notifier.nextDue?_of_singleton htasks herrors] at hmem
        cases hmem
        cases hcame
        rw [hdue]
        exact Instant.le_deadline _ _
  | fire hdue =>
    obtain ⟨came, -, -, heq⟩ := hs.fire_eq hdue
    refine ⟨?_, ?_, ?_, ?_, fun p hp => ?_, ?_, ?_⟩
    · rw [heq]
      exact hs.roots
    · rw [heq]
      exact hs.handlers
    · rw [NotifierHistory.pushes_advance]
      exact hs.timed.fireDue s.now
    · rw [heq]
      exact hs.errors
    · rw [NotifierHistory.pushes_advance] at hp
      exact hs.past p hp
    · rw [NotifierHistory.pushes_advance]
      exact hs.sorted
    · have hnone : (s.notifier.fireDue s.now).1.nextDue? = none := by
        rw [heq]
        exact Notifier.nextDue?_of_nil rfl hs.errors
      rw [hnone]
      nofun

/-- **The clock never passes a timer**, and the only one that lives goes off one interval after the
last change came in. -/
theorem isOnTime_of_runs {disk : Disk} {c : NotifierConfig} {limiter : L} {start : Instant}
    (hnew : Notifier.new disk c limiter = .ok n) (hrun : Runs prompt ⟨start, n⟩ h s) :
    s.IsOnTime n h := by
  induction hrun with
  | rest => exact isOnTime_of_new start hnew
  | step _ hstep ih => exact ih.step hstep

/-- **The clock can go on** to any later instant while nothing comes in, and the timers go off that
are due on the way. -/
theorem IsOnTime.exists_runs {first : LiveNotifier L} (hs : s.IsOnTime n h)
    (hrun : Runs prompt first h s) {now : Instant} (hnow : s.now ≤ now) :
    ∃ h' t, Runs prompt first h' t ∧ h'.pushes = h.pushes ∧ t.now = now ∧ t.IsIdle := by
  have hwait : ∀ {h : NotifierHistory} {s : LiveNotifier L}, Runs prompt first h s → s.now ≤ now →
      (∀ due ∈ s.notifier.nextDue?, now < due) →
      ∃ h' t, Runs prompt first h' t ∧ h'.pushes = h.pushes ∧ t.now = now ∧ t.IsIdle := by
    intro h s hrun hnow hdue
    have hstep := hrun.step (.wait now hnow fun due hmem => Nat.le_of_lt (hdue due hmem))
    refine ⟨_, _, hstep, ?_, rfl, hdue⟩
    rw [List.append_nil]
  rcases hs.cases_nextDue? with ⟨hnone, -⟩ | ⟨task, came, htasks, hnext, -, -⟩
  · refine hwait hrun hnow ?_
    rw [hnone]
    nofun
  · have hahead : s.now ≤ task.due := hs.ahead _ hnext
    by_cases hlt : now < task.due
    · refine hwait hrun hnow fun due hmem => ?_
      rw [hnext] at hmem
      cases hmem
      exact hlt
    · -- The clock stops at the timer, which goes off, and then nothing holds it any more.
      have hstop : Step prompt s [] { s with now := task.due } := by
        refine .wait _ hahead fun due hmem => ?_
        rw [hnext] at hmem
        cases hmem
        exact Nat.le_refl _
      have hdue : ¬ ({ s with now := task.due } : LiveNotifier L).IsIdle := fun hidle =>
        Nat.lt_irrefl _ (hidle _ hnext)
      have hfired := (hrun.step hstop).step (.fire hdue)
      obtain ⟨-, -, -, heq⟩ := (hs.step hstop).fire_eq hdue
      have hnone : (s.notifier.fireDue task.due).1.nextDue? = none := by
        rw [heq]
        exact Notifier.nextDue?_of_nil rfl hs.errors
      obtain ⟨h', t, hrun', hpushes, ht⟩ := hwait hfired (Nat.le_of_not_lt hlt) <| by
        rw [hnone]
        nofun
      refine ⟨h', t, hrun', hpushes.trans ?_, ht⟩
      rw [NotifierHistory.pushes_advance, List.append_nil]

/-- **Changes may come at any instants** that follow one another, and a prompt run takes them in. -/
theorem exists_runs_of_pairwise {disk : Disk} {c : NotifierConfig} {limiter : L} {start : Instant}
    (hnew : Notifier.new disk c limiter = .ok n) {pushes : List (Instant × Change)}
    (hsorted : pushes.Pairwise fun p q => p.1 ≤ q.1) (hstart : ∀ p ∈ pushes, start ≤ p.1)
    {now : Instant} (hnow : start ≤ now) (hpast : ∀ p ∈ pushes, p.1 ≤ now) :
    ∃ h s, Runs prompt ⟨start, n⟩ h s ∧ h.pushes = pushes ∧ s.now = now ∧ s.IsIdle := by
  induction pushes using List.reverseRecOn generalizing now with
  | nil => exact (isOnTime_of_new start hnew).exists_runs .rest hnow
  | append_singleton pushes p ih =>
    obtain ⟨hsorted, -, hlast⟩ := List.pairwise_append.1 hsorted
    obtain ⟨hstart, hp⟩ := List.forall_mem_append.1 hstart
    have hp : start ≤ p.1 := hp p (List.mem_singleton_self p)
    obtain ⟨h, s, hrun, hpushes, hs, hidle⟩ := ih hsorted hstart hp fun q hq =>
      hlast q hq p (List.mem_singleton_self p)
    have hpushed := hrun.step (.push p.2 fun _ => hidle)
    have hnext : s.now ≤ now := by
      rw [hs]
      exact hpast p (List.mem_append_right _ (List.mem_singleton_self p))
    obtain ⟨h', t, hrun', hpushes', ht⟩ := (isOnTime_of_runs hnew hpushed).exists_runs hpushed hnext
    refine ⟨h', t, hrun', ?_, ht⟩
    rw [hpushes', NotifierHistory.pushes_push, hpushes, hs]

end LiveNotifier

end CertRotation
