import CertRotation.Proofs.Watch.Batches

/-!
# What is pending has a timer

Every item that comes in sets the timer of its lane anew, and the timer that was set before is
aborted.  So of all timers of a lane at most one lives, and as long as it does not, nothing is
pending: whatever does away with the timer also empties the lane.

* `Lane.IsTimed` — at most one timer lives, it is of the present generation and goes off one delay
  after the last item came, and where none lives nothing is pending;
* `Lane.IsTimed.tasks_disarm`, `Lane.isTimed_arm`, `Lane.IsTimed.clear` — what setting a timer anew
  and a timer that goes off do to that;
* `Notifier.IsTimed` — both lanes of a notifier are so, and `Notifier.IsTimed.act` — every act keeps
  them so;
* `Notifier.isTimed_of_runs` — so they are after every run, and time that goes on leaves no timer
  behind that is due.
-/

set_option autoImplicit false

namespace CertRotation

/-! ## One lane -/

namespace Lane

variable {L ι : Type} {lane : Lane L (List ι)} {delay : Duration} {pushed : Option Instant}

/-- Nothing is stranded in the lane, whose last item came at `pushed`. -/
structure IsTimed (lane : Lane L (List ι)) (delay : Duration) (pushed : Option Instant) : Prop where
  /-- At most one timer lives. -/
  length_le_one : lane.tasks.length ≤ 1
  /-- It is of the present generation, and it is the one that setting the timer anew aborts. -/
  generation : ∀ task ∈ lane.tasks,
    task.generation = lane.generation ∧ lane.latest = some task.generation
  /-- It goes off one delay after the last item came. -/
  due : ∀ task ∈ lane.tasks, ∃ now, pushed = some now ∧ task.due = Instant.deadline now delay
  /-- Where none lives, nothing is pending. -/
  pending : lane.tasks = [] → lane.pending = []

theorem isTimed_of_nil (htasks : lane.tasks = []) (hpending : lane.pending = []) :
    lane.IsTimed delay pushed where
  length_le_one := by rw [htasks]; exact Nat.zero_le 1
  generation := by rw [htasks]; nofun
  due := by rw [htasks]; nofun
  pending _ := hpending

/-- Setting the timer anew aborts the one that lives. -/
theorem IsTimed.tasks_disarm (h : lane.IsTimed delay pushed) : lane.disarm.tasks = [] := by
  refine List.filter_eq_nil_iff.2 fun task htask => ?_
  rw [(h.generation task htask).2]
  simp

/-- Where nothing lives after an abort, the timer that is set then is the only one. -/
theorem isTimed_arm (htasks : lane.disarm.tasks = []) (now : Instant) :
    (lane.arm now delay).IsTimed delay (some now) := by
  have hone : (lane.arm now delay).tasks =
      [⟨lane.generation + 1, Instant.deadline now delay⟩] := by
    rw [arm, htasks]
    rfl
  refine ⟨?_, ?_, ?_, ?_⟩
  · rw [hone]
    exact Nat.le_refl 1
  · rw [hone]
    exact List.forall_mem_singleton.2 ⟨rfl, rfl⟩
  · rw [hone]
    exact List.forall_mem_singleton.2 ⟨now, rfl, rfl⟩
  · rw [hone]
    nofun

/-- A timer of a generation that has passed is not among those that live. -/
theorem IsTimed.finish_eq (h : lane.IsTimed delay pushed) {task : TimerTask}
    (hpast : lane.isCurrent task = false) : lane.finish task = lane := by
  have hall : lane.tasks.filter (· ≠ task) = lane.tasks := by
    refine List.filter_eq_self.2 fun live hlive => decide_eq_true ?_
    rintro rfl
    rw [isCurrent, decide_eq_false_iff_not] at hpast
    exact hpast (h.generation live hlive).1
  rw [finish, hall]

/-- A lane that is emptied when a timer goes off. -/
theorem IsTimed.clear (h : lane.IsTimed delay pushed) (task : TimerTask) :
    IsTimed ({ lane.finish task with pending := [] } : Lane L (List ι)) delay pushed := by
  have hsub : (lane.finish task).tasks.Sublist lane.tasks := List.filter_sublist
  exact ⟨hsub.length_le.trans h.length_le_one, fun live hlive => h.generation live (hsub.mem hlive),
    fun live hlive => h.due live (hsub.mem hlive), fun _ => rfl⟩

end Lane

/-! ## Both lanes of a notifier -/

open PendingChanges

namespace Notifier

variable {L : Type} {n m : Notifier L} {delay : Duration} {changed failed : Option Instant}

/-- Nothing is stranded in either lane of the notifier; the last change came at `changed` and the
last error at `failed`. -/
structure IsTimed (n : Notifier L) (delay : Duration) (changed failed : Option Instant) : Prop where
  interval : n.interval = delay
  filed : n.changes.pending.IsFiled
  changes : n.changes.IsTimed delay changed
  errors : n.errors.IsTimed delay failed

theorem interval_of_new {disk : Disk} {c : NotifierConfig} {limiter : L}
    (h : Notifier.new disk c limiter = .ok n) : n.interval = c.throttle.interval := by
  rw [Notifier.new] at h
  split at h
  · cases h
  · obtain ⟨added, -, h⟩ := bind_eq_ok.1 h
    cases h
    rfl

/-- In a new notifier nothing is pending. -/
theorem isTimed_of_new {disk : Disk} {c : NotifierConfig} {limiter : L}
    (h : Notifier.new disk c limiter = .ok n) : n.IsTimed c.throttle.interval none none := by
  obtain ⟨-, hchanges, herrors, -⟩ := of_new h
  refine ⟨interval_of_new h, ?_, ?_, ?_⟩
  · rw [hchanges]
    exact isFiled_nil
  · rw [hchanges]
    exact Lane.isTimed_of_nil rfl rfl
  · rw [herrors]
    exact Lane.isTimed_of_nil rfl rfl

/-- A flush leaves nothing pending. -/
theorem fst_flushChanges (h : n.changes.pending.IsFiled) :
    n.flushChanges.1 = { n with changes := { n.changes with pending := [] } } := by
  rw [flushChanges]
  split
  · rename_i hall
    have hnil : n.changes.pending = [] := by
      refine List.eq_nil_iff_forall_not_mem.2 fun b hb => h.ne_nil b hb ?_
      exact List.isEmpty_iff.1 (List.all_eq_true.1 hall b hb)
    rw [← hnil]
  · rfl

theorem fst_flushErrors :
    n.flushErrors.1 = { n with errors := { n.errors with pending := [] } } := by
  rw [flushErrors]
  split
  · rename_i hempty
    rw [← List.isEmpty_iff.1 hempty]
  · rfl

/-- What a change that comes in does: the timer is set anew, or it is aborted and all that is
pending is delivered. -/
theorem exists_fst_pushChange [Limiter L] (h : n.changes.pending.IsFiled) (now : Instant)
    (runtime : Bool) (change : Change) :
    ∃ lane : Lane L PendingChanges, lane.pending.IsFiled ∧
      lane.disarm.tasks = n.changes.disarm.tasks ∧ (n.pushChange now runtime change).1 =
        { n with changes :=
          if runtime then lane.arm now n.interval else { lane.disarm with pending := [] } } := by
  rw [pushChange]
  generalize hfiled : n.changes.pending.file (n.rootFor change.path) change = filed
  have hkeep : filed.IsFiled := by rw [← hfiled]; exact h.file
  obtain ⟨granted, limiter, hacquire⟩ : ∃ granted limiter,
      Lane.acquire { n.changes with pending := filed } now =
        (granted, { n.changes with pending := filed, limiter := limiter }) := ⟨_, _, rfl⟩
  rw [hacquire]
  cases granted with
  | true =>
    have hflush := fst_flushChanges
      (n := { n with changes := { n.changes with pending := filed, limiter := limiter } }) hkeep
    refine ⟨{ n.changes with pending := [], limiter := limiter }, isFiled_nil, rfl, ?_⟩
    dsimp only
    rw [if_pos rfl, hflush]
    cases runtime with
    | true => rfl
    | false => exact fst_flushChanges isFiled_nil
  | false =>
    refine ⟨{ n.changes with pending := filed, limiter := limiter }, hkeep, rfl, ?_⟩
    cases runtime with
    | true => rfl
    | false => exact fst_flushChanges hkeep

/-- What an error that comes in does. -/
theorem exists_fst_pushError [Limiter L] (n : Notifier L) (now : Instant) (runtime : Bool)
    (e : WatchError) :
    ∃ lane : Lane L (List WatchError), lane.disarm.tasks = n.errors.disarm.tasks ∧
      (n.pushError now runtime e).1 =
        { n with errors :=
          if runtime then lane.arm now n.interval else { lane.disarm with pending := [] } } := by
  rw [pushError]
  generalize n.errors.pending ++ [e] = pending
  obtain ⟨granted, limiter, hacquire⟩ : ∃ granted limiter,
      Lane.acquire { n.errors with pending := pending } now =
        (granted, { n.errors with pending := pending, limiter := limiter }) := ⟨_, _, rfl⟩
  rw [hacquire]
  cases granted with
  | true =>
    have hflush := fst_flushErrors
      (n := { n with errors := { n.errors with pending := pending, limiter := limiter } })
    refine ⟨{ n.errors with pending := [], limiter := limiter }, rfl, ?_⟩
    dsimp only
    rw [if_pos rfl, hflush]
    cases runtime with
    | true => rfl
    | false => exact fst_flushErrors
  | false =>
    refine ⟨{ n.errors with pending := pending, limiter := limiter }, rfl, ?_⟩
    cases runtime with
    | true => rfl
    | false => exact fst_flushErrors

/-- **After a change came in** its timer is the only one, or nothing is pending. -/
theorem IsTimed.pushChange [Limiter L] (h : n.IsTimed delay changed failed) (now : Instant)
    (runtime : Bool) (change : Change) :
    (n.pushChange now runtime change).1.IsTimed delay (some now) failed := by
  obtain ⟨lane, hfiled, hdisarm, heq⟩ := exists_fst_pushChange h.filed now runtime change
  have htasks : lane.disarm.tasks = [] := hdisarm.trans h.changes.tasks_disarm
  rw [heq, h.interval]
  cases runtime with
  | true => exact ⟨rfl, hfiled, Lane.isTimed_arm htasks now, h.errors⟩
  | false => exact ⟨rfl, isFiled_nil, Lane.isTimed_of_nil htasks rfl, h.errors⟩

theorem IsTimed.pushError [Limiter L] (h : n.IsTimed delay changed failed) (now : Instant)
    (runtime : Bool) (e : WatchError) :
    (n.pushError now runtime e).1.IsTimed delay changed (some now) := by
  obtain ⟨lane, hdisarm, heq⟩ := exists_fst_pushError n now runtime e
  have htasks : lane.disarm.tasks = [] := hdisarm.trans h.errors.tasks_disarm
  rw [heq, h.interval]
  cases runtime with
  | true => exact ⟨rfl, h.filed, h.changes, Lane.isTimed_arm htasks now⟩
  | false => exact ⟨rfl, h.filed, h.changes, Lane.isTimed_of_nil htasks rfl⟩

/-- **A timer that goes off** is of the present generation and everything is delivered, or it is
not among those that live. -/
theorem IsTimed.fireChanges (h : n.IsTimed delay changed failed) (task : TimerTask) :
    (n.fireChanges task).1.IsTimed delay changed failed := by
  rw [Notifier.fireChanges]
  cases hcurrent : n.changes.isCurrent task with
  | true =>
    have hclear := fst_flushChanges (n := { n with changes := n.changes.finish task }) h.filed
    rw [if_pos rfl, hclear]
    exact ⟨h.interval, isFiled_nil, h.changes.clear task, h.errors⟩
  | false =>
    rw [if_neg Bool.false_ne_true, h.changes.finish_eq hcurrent]
    exact h

theorem IsTimed.fireErrors (h : n.IsTimed delay changed failed) (task : TimerTask) :
    (n.fireErrors task).1.IsTimed delay changed failed := by
  rw [Notifier.fireErrors]
  cases hcurrent : n.errors.isCurrent task with
  | true =>
    rw [if_pos rfl, fst_flushErrors]
    exact ⟨h.interval, h.filed, h.changes, h.errors.clear task⟩
  | false =>
    rw [if_neg Bool.false_ne_true, h.errors.finish_eq hcurrent]
    exact h

theorem IsTimed.steps {α : Type} {step : Notifier L → α → Notifier L × List Delivery}
    (hstep : ∀ (n : Notifier L) (a : α), n.IsTimed delay changed failed →
      (step n a).1.IsTimed delay changed failed)
    (h : n.IsTimed delay changed failed) (todo : List α) :
    (Notifier.steps step n todo).1.IsTimed delay changed failed := by
  induction todo generalizing n with
  | nil => exact h
  | cons a todo ih => exact ih (hstep n a h)

theorem IsTimed.fireDue (h : n.IsTimed delay changed failed) (now : Instant) :
    (n.fireDue now).1.IsTimed delay changed failed := by
  have hchanges := h.steps (fun _ task hn => hn.fireChanges task) (dueBy now n.changes.tasks)
  exact hchanges.steps (fun _ task hn => hn.fireErrors task) _

/-- A timer that has gone off no longer lives. -/
theorem tasks_fireChanges (n : Notifier L) (task : TimerTask) :
    (n.fireChanges task).1.changes.tasks = n.changes.tasks.filter (· ≠ task) := by
  rw [Notifier.fireChanges]
  split
  · rw [flushChanges]
    split
    · rfl
    · rfl
  · rfl

theorem tasks_fireErrors (n : Notifier L) (task : TimerTask) :
    (n.fireErrors task).1.errors.tasks = n.errors.tasks.filter (· ≠ task) := by
  rw [Notifier.fireErrors]
  split
  · rw [fst_flushErrors]
    rfl
  · rfl

theorem changes_fireErrors (n : Notifier L) (task : TimerTask) :
    (n.fireErrors task).1.changes = n.changes := by
  rw [Notifier.fireErrors]
  split
  · rw [fst_flushErrors]
  · rfl

/-- What lives after some timers have gone off is none of them. -/
theorem notMem_of_mem_steps (lane : Notifier L → List TimerTask)
    {step : Notifier L → TimerTask → Notifier L × List Delivery}
    (hstep : ∀ n task, lane (step n task).1 = (lane n).filter (· ≠ task)) {todo : List TimerTask}
    {live : TimerTask} (hlive : live ∈ lane (Notifier.steps step n todo).1) :
    live ∈ lane n ∧ live ∉ todo := by
  induction todo generalizing n with
  | nil => exact ⟨hlive, List.not_mem_nil⟩
  | cons task todo ih =>
    obtain ⟨hrest, hnot⟩ := ih hlive
    rw [hstep, List.mem_filter, decide_eq_true_iff] at hrest
    exact ⟨hrest.1, List.not_mem_cons_of_ne_of_not_mem hrest.2 hnot⟩

theorem changes_steps_fireErrors (todo : List TimerTask) :
    (Notifier.steps Notifier.fireErrors n todo).1.changes = n.changes := by
  induction todo generalizing n with
  | nil => rfl
  | cons task todo ih => exact ih.trans (changes_fireErrors n task)

/-- **When the timers go off that are due, none stays behind that is.** -/
theorem lt_due_of_fireDue (n : Notifier L) (now : Instant) :
    (∀ task ∈ (n.fireDue now).1.changes.tasks, now < task.due) ∧
      ∀ task ∈ (n.fireDue now).1.errors.tasks, now < task.due := by
  have hdue : ∀ {tasks : List TimerTask} {task}, task ∈ tasks → task ∉ dueBy now tasks →
      now < task.due := by
    intro tasks task hmem hnot
    rw [dueBy, List.mem_mergeSort, List.mem_filter, decide_eq_true_iff] at hnot
    exact Nat.lt_of_not_le fun hle => hnot ⟨hmem, hle⟩
  constructor
  · intro task htask
    rw [fireDue] at htask
    dsimp only at htask
    rw [changes_steps_fireErrors] at htask
    obtain ⟨hmem, hnot⟩ := notMem_of_mem_steps (fun n => n.changes.tasks) tasks_fireChanges htask
    exact hdue hmem hnot
  · intro task htask
    obtain ⟨hmem, hnot⟩ := notMem_of_mem_steps (fun n => n.errors.tasks) tasks_fireErrors htask
    exact hdue hmem hnot

end Notifier

/-! ## Runs -/

namespace NotifierAct

/-- When a change came in. -/
def changeAt? : NotifierAct → Option Instant
  | push now _ _ => some now
  | _ => none

/-- When an error came in. -/
def errorAt? : NotifierAct → Option Instant
  | pushError now _ _ => some now
  | _ => none

end NotifierAct

namespace NotifierHistory

/-- The last of some instants in a history. -/
def last? (at? : NotifierAct → Option Instant) (h : NotifierHistory) : Option Instant :=
  (h.filterMap fun e => at? e.1).getLast?

theorem last?_concat (at? : NotifierAct → Option Instant) (h : NotifierHistory) (a : NotifierAct)
    (ds : List Delivery) : last? at? (h ++ [(a, ds)]) = (at? a).or (last? at? h) := by
  rw [last?, List.filterMap_append, List.getLast?_append]
  cases hat : at? a with
  | none => simp [hat, last?]
  | some now => simp [hat]

end NotifierHistory

namespace Notifier

variable {L : Type} {n m : Notifier L} {delay : Duration} {changed failed : Option Instant}
  [Limiter L]

/-- **Any act leaves nothing stranded.** -/
theorem IsTimed.act (h : m.IsTimed delay changed failed) (a : NotifierAct) :
    (m.act a).1.IsTimed delay (a.changeAt?.or changed) (a.errorAt?.or failed) := by
  cases a with
  | push now runtime change => exact h.pushChange now runtime change
  | pushError now runtime e => exact h.pushError now runtime e
  | advance now => exact h.fireDue now
  | start disk runtime => exact ⟨h.interval, h.filed, h.changes, h.errors⟩
  | exchange onBatch onErrors => exact ⟨h.interval, h.filed, h.changes, h.errors⟩
  | stop =>
    exact ⟨h.interval, isFiled_nil, Lane.isTimed_of_nil h.changes.tasks_disarm rfl,
      Lane.isTimed_of_nil h.errors.tasks_disarm rfl⟩

/-- **Nothing is ever stranded.**  Whatever has happened to a notifier, in either lane at most one
timer lives; it is of the present generation and goes off one interval after the last item came, and
where none lives nothing is pending.  Whenever time goes on, the timers that are then due go off. -/
theorem isTimed_of_runs {disk : Disk} {c : NotifierConfig} {limiter : L} {h : NotifierHistory}
    (hnew : Notifier.new disk c limiter = .ok n) (hrun : Runs n h m) :
    m.changes.IsTimed c.throttle.interval (h.last? NotifierAct.changeAt?) ∧
      m.errors.IsTimed c.throttle.interval (h.last? NotifierAct.errorAt?) ∧
      ∀ now, (∀ task ∈ (m.fireDue now).1.changes.tasks, now < task.due) ∧
        ∀ task ∈ (m.fireDue now).1.errors.tasks, now < task.due := by
  have htimed : m.IsTimed c.throttle.interval (h.last? NotifierAct.changeAt?)
      (h.last? NotifierAct.errorAt?) := by
    induction hrun with
    | rest => exact isTimed_of_new hnew
    | act a _ ih =>
      rw [NotifierHistory.last?_concat, NotifierHistory.last?_concat]
      exact ih.act a
  exact ⟨htimed.changes, htimed.errors, lt_due_of_fireDue m⟩

/-- A change is forgotten at a stop, another one waits for its timer, and an error has come in where
timers cannot run. -/
theorem isTimed_of_waiting : ∃ (n m : Notifier (Bucket Float)) (h : NotifierHistory),
    Notifier.new emptyDirectory panicking (Bucket.new 1 0 0) = .ok n ∧ Runs n h m ∧
      m.changes.pending = [(⟨[47, 114]⟩, [changeOf 98])] ∧
      m.changes.tasks = [⟨3, 1000000⟩] ∧ m.changes.IsTimed 1 (some 5) ∧
      m.errors.tasks = [] ∧ m.errors.IsTimed 1 (some 7) := by
  obtain ⟨n, hnew⟩ : ∃ n : Notifier (Bucket Float),
      Notifier.new emptyDirectory panicking (Bucket.new 1 0 0) = .ok n := ⟨_, rfl⟩
  have hrun := Runs.act (.pushError 7 false .noRuntime) <| .act (.push 5 true (changeOf 98)) <|
    .act .stop <| .act (.push 0 true (changeOf 97)) (.rest (n := n))
  obtain ⟨hchanges, herrors, -⟩ := isTimed_of_runs hnew hrun
  refine ⟨n, _, _, hnew, hrun, ?_, ?_, hchanges, ?_, herrors⟩
  · cases hnew
    rfl
  · cases hnew
    rfl
  · cases hnew
    rfl

end Notifier

end CertRotation
