import CertRotation.Proofs.Disk.Lookup
import CertRotation.Proofs.Path.Order
import CertRotation.Watch.Notifier
import Mathlib.Data.List.DropRight
import Mathlib.Data.List.Infix

/-!
# What becomes of a change

A notifier takes in changes one by one and hands them out in batches, at once where the limiter
grants it, when a timer goes off, or right away where timers cannot run.  Whichever way a batch
leaves, it takes with it all that is pending, so for every root the changes that went out and those
that are pending are together the changes that came in, in the order in which they came.

* `PendingChanges.under` — the changes that are filed under a path; `PendingChanges.under_file` —
  filing a change adds it at the end of what is under its root, and nowhere else;
* `Notifier.Passes` — on the way from one state to another no change was lost, repeated, put
  elsewhere or moved before an earlier one; every act but a stop has this property;
* `Notifier.Accounts` — the invariant of a run with its history, and `Notifier.accounts_of_runs` —
  every run keeps it.
-/

set_option autoImplicit false

namespace CertRotation

/-! ## Pending changes -/

namespace PendingChanges

variable {pending rest : PendingChanges} {root r : Path} {change : Change} {b : Path × List Change}

/-- The changes that are filed under a path with the components of `r`. -/
def under (r : Path) (pending : PendingChanges) : List Change :=
  (pending.filter fun b => b.1.same r).flatMap Prod.snd

/-- The batches are in ascending order of their roots, so that each root has one, and none is
empty. -/
structure IsFiled (pending : PendingChanges) : Prop where
  ascending : pending.Pairwise fun a b => a.1.compare b.1 = .lt
  ne_nil : ∀ b ∈ pending, b.2 ≠ []

@[simp] theorem under_nil : under r [] = [] := rfl

theorem under_cons : under r (b :: rest) = (if b.1.same r then b.2 else []) ++ under r rest := by
  rw [under, List.filter_cons]
  split
  · rfl
  · rfl

theorem under_append : under r (pending ++ rest) = under r pending ++ under r rest := by
  rw [under, List.filter_append, List.flatMap_append]
  rfl

theorem under_eq_nil (h : ∀ b ∈ pending, ¬ b.1.same r) : under r pending = [] := by
  rw [under, List.filter_eq_nil_iff.2 h]
  rfl

/-- Nothing is under a path that comes before all roots. -/
theorem under_eq_nil_of_lt (h : ∀ b ∈ pending, root.compare b.1 = .lt) (hr : root.same r) :
    under r pending = [] := by
  refine under_eq_nil fun b hb hsame => Path.not_same_of_lt (h b hb) ?_
  rw [Path.same_iff] at hr hsame ⊢
  rw [hr, hsame]

theorem isFiled_nil : IsFiled [] := ⟨.nil, by simp⟩

/-- Filing a change makes a batch, leaves one as it is or adds to one. -/
theorem mem_file (hb : b ∈ pending.file root change) :
    b = (root, [change]) ∨ b ∈ pending ∨ ∃ old ∈ pending, b = (old.1, old.2 ++ [change]) := by
  induction pending with
  | nil => exact .inl (List.mem_singleton.1 hb)
  | cons first rest ih =>
    obtain ⟨other, changes⟩ := first
    rw [file] at hb
    split at hb
    · rcases List.mem_cons.1 hb with rfl | hb
      · exact .inl rfl
      · exact .inr (.inl hb)
    · rcases List.mem_cons.1 hb with rfl | hb
      · exact .inr (.inr ⟨_, List.mem_cons_self, rfl⟩)
      · exact .inr (.inl (List.mem_cons_of_mem _ hb))
    · rcases List.mem_cons.1 hb with rfl | hb
      · exact .inr (.inl List.mem_cons_self)
      · rcases ih hb with hnew | hold | ⟨old, hold, hb⟩
        · exact .inl hnew
        · exact .inr (.inl (List.mem_cons_of_mem _ hold))
        · exact .inr (.inr ⟨old, List.mem_cons_of_mem _ hold, hb⟩)

/-- A batch belongs to the root that was filed under, or to one that was there. -/
theorem exists_of_mem_file (hb : b ∈ pending.file root change) :
    b.1 = root ∨ ∃ old ∈ pending, b.1 = old.1 := by
  rcases mem_file hb with rfl | hb | ⟨old, hold, rfl⟩
  · exact .inl rfl
  · exact .inr ⟨b, hb, rfl⟩
  · exact .inr ⟨old, hold, rfl⟩

/-- No batch is empty, so a delivery leaves none out. -/
theorem IsFiled.filter_eq (h : pending.IsFiled) :
    pending.filter (fun b => !b.2.isEmpty) = pending :=
  List.filter_eq_self.2 fun b hb => by simpa using h.ne_nil b hb

theorem IsFiled.file (h : pending.IsFiled) : (pending.file root change).IsFiled := by
  induction pending with
  | nil => exact ⟨List.pairwise_singleton _ _, by simp [PendingChanges.file]⟩
  | cons first rest ih =>
    obtain ⟨other, changes⟩ := first
    obtain ⟨hfirst, hrest⟩ := List.pairwise_cons.1 h.ascending
    have hother := h.ne_nil _ List.mem_cons_self
    have hne : ∀ b ∈ rest, b.2 ≠ [] := fun b hb => h.ne_nil b (List.mem_cons_of_mem _ hb)
    rw [PendingChanges.file]
    split
    · rename_i hlt
      refine ⟨List.pairwise_cons.2 ⟨fun b hb => ?_, h.ascending⟩, ?_⟩
      · rcases List.mem_cons.1 hb with rfl | hb
        · exact hlt
        · exact Std.TransCmp.lt_trans hlt (hfirst b hb)
      · simpa using ⟨hother, fun p c hb => hne (p, c) hb⟩
    · exact ⟨List.pairwise_cons.2 ⟨hfirst, hrest⟩, by simpa using fun p c hb => hne (p, c) hb⟩
    · rename_i hgt
      have hfiled := ih ⟨hrest, hne⟩
      refine ⟨List.pairwise_cons.2 ⟨fun b hb => ?_, hfiled.ascending⟩, ?_⟩
      · rcases exists_of_mem_file hb with hroot | ⟨old, hold, heq⟩
        · rw [hroot]
          exact Std.OrientedCmp.gt_iff_lt.1 hgt
        · rw [heq]
          exact hfirst old hold
      · exact List.forall_mem_cons.2 ⟨hother, hfiled.ne_nil⟩

/-- **A change is filed at the end of what is under its root**, and nothing else moves. -/
theorem under_file (h : pending.IsFiled) :
    under r (pending.file root change) =
      under r pending ++ if root.same r then [change] else [] := by
  induction pending with
  | nil => rw [file, under_cons, under_nil, List.append_nil, List.nil_append]
  | cons first rest ih =>
    obtain ⟨other, changes⟩ := first
    obtain ⟨hfirst, hrest⟩ := List.pairwise_cons.1 h.ascending
    rw [file]
    split
    · rename_i hlt
      rw [under_cons]
      by_cases hr : root.same r
      · have hnone : under r ((other, changes) :: rest) = [] := by
          refine under_eq_nil_of_lt (fun b hb => ?_) hr
          rcases List.mem_cons.1 hb with rfl | hb
          · exact hlt
          · exact Std.TransCmp.lt_trans hlt (hfirst b hb)
        rw [if_pos hr, hnone, List.append_nil, List.nil_append]
      · rw [if_neg hr, List.append_nil, List.nil_append]
    · rename_i heq
      have hsame : root.same r = other.same r := Path.same_congr (Path.compare_eq_eq.1 heq)
      rw [under_cons, under_cons, hsame]
      by_cases hr : other.same r
      · rw [if_pos hr, if_pos hr, if_pos hr, under_eq_nil_of_lt hfirst hr, List.append_nil,
          List.append_nil]
      · rw [if_neg hr, if_neg hr, if_neg hr, List.append_nil]
    · rw [under_cons, under_cons, List.append_assoc]
      rw [ih ⟨hrest, fun b hb => h.ne_nil b (List.mem_cons_of_mem _ hb)⟩]

end PendingChanges

/-! ## From state to state -/

/-- The batch that a call of a callback handed out, if it was the one for batches. -/
def Delivery.batch? : Delivery → Option (Path × List Change)
  | .batch root changes _ => some (root, changes)
  | .signal _ | .errors .. => none

/-- The batches that some calls handed out, in the order of the calls. -/
def Delivery.batches (ds : List Delivery) : PendingChanges := ds.filterMap Delivery.batch?

open Delivery PendingChanges

namespace Notifier

variable {L : Type} {n m o : Notifier L} {changes more : List Change} {ds es : List Delivery}

/-- The changes among `changes` that are filed under `r`. -/
def filedUnder (n : Notifier L) (r : Path) (changes : List Change) : List Change :=
  changes.filter fun change => (n.rootFor change.path).same r

/-- The notifier has a callback for batches, and its pending changes are filed. -/
structure IsBatching (n : Notifier L) : Prop where
  handler : n.handlers.batch.isSome
  filed : n.changes.pending.IsFiled

/-- On the way from `n` to `m` the changes `changes` came in and the calls `ds` were made, and under
every path what was handed out and what is pending now is what was pending before and what came in,
in this order. -/
structure Passes (n m : Notifier L) (changes : List Change) (ds : List Delivery) : Prop where
  batching : m.IsBatching
  roots : m.roots = n.roots
  kept : ∀ r, under r (batches ds) ++ under r m.changes.pending =
    under r n.changes.pending ++ n.filedUnder r changes
  ne_nil : ∀ b ∈ batches ds, b.2 ≠ []

theorem filedUnder_append (r : Path) :
    n.filedUnder r (changes ++ more) = n.filedUnder r changes ++ n.filedUnder r more :=
  List.filter_append ..

theorem rootFor_congr (h : m.roots = n.roots) (p : Path) : m.rootFor p = n.rootFor p := by
  rw [rootFor, rootFor, h]

theorem filedUnder_congr (h : m.roots = n.roots) (r : Path) :
    m.filedUnder r changes = n.filedUnder r changes := by
  rw [filedUnder, filedUnder]
  congr 1
  funext change
  rw [rootFor_congr h]

theorem batches_append : batches (ds ++ es) = batches ds ++ batches es := List.filterMap_append ..

/-- Nothing passes where the pending changes stay and no batch is handed out. -/
theorem IsBatching.passes_nil (h : n.IsBatching) (hroots : m.roots = n.roots)
    (hhandler : m.handlers.batch.isSome) (hpending : m.changes.pending = n.changes.pending)
    (hds : batches ds = []) : Passes n m [] ds where
  batching := ⟨hhandler, by rw [hpending]; exact h.filed⟩
  roots := hroots
  kept r := by
    rw [hds, hpending]
    exact (List.append_nil _).symm
  ne_nil := by rw [hds]; nofun

theorem Passes.trans (h : Passes n m changes ds) (h' : Passes m o more es) :
    Passes n o (changes ++ more) (ds ++ es) where
  batching := h'.batching
  roots := h'.roots.trans h.roots
  kept r := by
    calc under r (batches (ds ++ es)) ++ under r o.changes.pending
        = under r (batches ds) ++ (under r (batches es) ++ under r o.changes.pending) := by
          rw [batches_append, under_append, List.append_assoc]
      _ = under r (batches ds) ++ under r m.changes.pending ++ n.filedUnder r more := by
          rw [h'.kept, filedUnder_congr h.roots, List.append_assoc]
      _ = _ := by rw [h.kept, List.append_assoc, filedUnder_append]
  ne_nil b hb := by
    rw [batches_append, List.mem_append] at hb
    exact hb.elim (h.ne_nil b) (h'.ne_nil b)

/-- The way goes on, and nothing comes in. -/
theorem Passes.goOn (h : Passes n m changes ds) (h' : Passes m o [] es) :
    Passes n o changes (ds ++ es) := by
  have hboth := h.trans h'
  rw [List.append_nil] at hboth
  exact hboth

/-- The way goes on, and nothing comes in or is handed out. -/
theorem Passes.goOnQuietly (h : Passes n m changes ds) (h' : Passes m o [] []) :
    Passes n o changes ds := by
  have hboth := h.goOn h'
  rw [List.append_nil] at hboth
  exact hboth

/-! ## What a notifier does -/

/-- With a callback for batches, what is pending is handed out as it is. -/
theorem batches_deliver {handlers : Handlers} {pending : PendingChanges}
    (h : handlers.batch.isSome) (hfiled : pending.IsFiled) :
    batches (deliver handlers pending) = pending := by
  obtain ⟨callback, hcallback⟩ := Option.isSome_iff_exists.1 h
  rw [deliver, hcallback]
  dsimp only
  rw [hfiled.filter_eq, batches, List.filterMap_map]
  exact List.filterMap_some

/-- A flush hands out all that is pending. -/
theorem IsBatching.flushChanges (h : n.IsBatching) :
    Passes n n.flushChanges.1 [] n.flushChanges.2 := by
  rw [Notifier.flushChanges]
  split
  · exact h.passes_nil rfl h.handler rfl rfl
  · have hbatches := batches_deliver h.handler h.filed
    refine ⟨⟨h.handler, isFiled_nil⟩, rfl, fun r => ?_, ?_⟩
    · rw [hbatches]
      rfl
    · rw [hbatches]
      exact h.filed.ne_nil

/-- A change comes in and is filed. -/
theorem IsBatching.file (h : n.IsBatching) (change : Change) :
    Passes n { n with changes := { n.changes with
      pending := n.changes.pending.file (n.rootFor change.path) change } } [change] [] := by
  refine ⟨⟨h.handler, h.filed.file⟩, rfl, fun r => ?_, nofun⟩
  dsimp only
  rw [under_file h.filed, filedUnder, List.filter_singleton, cond_eq_ite]
  rfl

/-- The limiter, the timers and the errors do not matter to what is pending. -/
theorem IsBatching.lanes (h : n.IsBatching) (lane : Lane L PendingChanges)
    (errors : Lane L (List WatchError)) (hpending : lane.pending = n.changes.pending) :
    Passes n { n with changes := lane, errors := errors } [] [] :=
  h.passes_nil rfl h.handler hpending rfl

/-- A new notifier has the callbacks that it was given, nothing is pending, and its watcher has been
given the roots. -/
theorem of_new {disk : Disk} {c : NotifierConfig} {limiter : L}
    (h : Notifier.new disk c limiter = .ok n) :
    n.handlers = c.handlers ∧ n.changes = .new [] limiter ∧ n.errors = .new [] limiter ∧
      PathWatcher.addPaths disk
        (.new c.subfolders (some fun _ => .returned) (some fun _ => .returned)) c.paths =
          .ok (n.roots, n.watcher) := by
  rw [Notifier.new] at h
  split at h
  · cases h
  · obtain ⟨⟨roots, watcher⟩, hadd, h⟩ := bind_eq_ok.1 h
    cases h
    exact ⟨rfl, rfl, rfl, hadd⟩

theorem acquire_pending [Limiter L] {α : Type} (lane : Lane L α) (now : Instant) :
    (lane.acquire now).2.pending = lane.pending := rfl

/-- A flush may be left out. -/
theorem IsBatching.passes_ite (h : n.IsBatching) {flushed : Notifier L × List Delivery}
    (hflush : Passes n flushed.1 [] flushed.2) (granted : Bool) :
    Passes n (if granted then flushed else (n, [])).1 []
      (if granted then flushed else (n, [])).2 := by
  cases granted with
  | true => exact hflush
  | false => exact h.passes_nil rfl h.handler rfl rfl

theorem IsBatching.pushChange [Limiter L] (h : n.IsBatching) (now : Instant) (runtime : Bool)
    (change : Change) :
    Passes n (n.pushChange now runtime change).1 [change] (n.pushChange now runtime change).2 := by
  have hfile := h.file change
  rw [Notifier.pushChange]
  have hpending := acquire_pending { n.changes with
    pending := n.changes.pending.file (n.rootFor change.path) change } now
  generalize { n.changes with
    pending := n.changes.pending.file (n.rootFor change.path) change }.acquire now = answer
    at hpending ⊢
  obtain ⟨granted, lane⟩ := answer
  have hlane := hfile.goOn (hfile.batching.lanes lane n.errors hpending)
  have hflush := hlane.batching.passes_ite hlane.batching.flushChanges granted
  dsimp only at hflush ⊢
  generalize (if granted then _ else _ : Notifier L × List Delivery) = flushed at hflush ⊢
  obtain ⟨m, first⟩ := flushed
  have hfirst := hlane.goOn hflush
  cases runtime with
  | true =>
    exact hfirst.goOnQuietly (hfirst.batching.lanes (m.changes.arm now m.interval) m.errors rfl)
  | false =>
    have hquiet := hfirst.goOnQuietly (hfirst.batching.lanes m.changes.disarm m.errors rfl)
    exact hquiet.goOn hquiet.batching.flushChanges

/-- Errors travel in their own lane. -/
theorem IsBatching.flushErrors (h : n.IsBatching) :
    Passes n n.flushErrors.1 [] n.flushErrors.2 := by
  rw [Notifier.flushErrors]
  split
  · exact h.passes_nil rfl h.handler rfl rfl
  · refine h.passes_nil rfl h.handler rfl ?_
    dsimp only
    split
    · rfl
    · rfl

theorem IsBatching.pushError [Limiter L] (h : n.IsBatching) (now : Instant) (runtime : Bool)
    (e : WatchError) :
    Passes n (n.pushError now runtime e).1 [] (n.pushError now runtime e).2 := by
  rw [Notifier.pushError]
  generalize { n.errors with pending := n.errors.pending ++ [e] }.acquire now = answer
  obtain ⟨granted, lane⟩ := answer
  have hlane := h.lanes n.changes lane rfl
  have hflush := hlane.batching.passes_ite hlane.batching.flushErrors granted
  dsimp only at hflush ⊢
  generalize (if granted then _ else _ : Notifier L × List Delivery) = flushed at hflush ⊢
  obtain ⟨m, first⟩ := flushed
  have hfirst := hlane.goOn hflush
  cases runtime with
  | true =>
    exact hfirst.goOnQuietly (hfirst.batching.lanes m.changes (m.errors.arm now m.interval) rfl)
  | false =>
    have hquiet := hfirst.goOnQuietly (hfirst.batching.lanes m.changes m.errors.disarm rfl)
    exact hquiet.goOn hquiet.batching.flushErrors

theorem IsBatching.fireChanges (h : n.IsBatching) (task : TimerTask) :
    Passes n (n.fireChanges task).1 [] (n.fireChanges task).2 := by
  have hlane := h.lanes (n.changes.finish task) n.errors rfl
  exact hlane.goOn (hlane.batching.passes_ite hlane.batching.flushChanges _)

theorem IsBatching.fireErrors (h : n.IsBatching) (task : TimerTask) :
    Passes n (n.fireErrors task).1 [] (n.fireErrors task).2 := by
  have hlane := h.lanes n.changes (n.errors.finish task) rfl
  exact hlane.goOn (hlane.batching.passes_ite hlane.batching.flushErrors _)

/-- Where nothing comes in at any step, nothing comes in. -/
theorem IsBatching.steps {α : Type} {step : Notifier L → α → Notifier L × List Delivery}
    (hstep : ∀ (n : Notifier L) (a : α), n.IsBatching → Passes n (step n a).1 [] (step n a).2)
    (h : n.IsBatching) (todo : List α) :
    Passes n (Notifier.steps step n todo).1 [] (Notifier.steps step n todo).2 := by
  induction todo generalizing n with
  | nil => exact h.passes_nil rfl h.handler rfl rfl
  | cons a todo ih =>
    have hfirst := hstep n a h
    exact hfirst.goOn (ih hfirst.batching)

theorem IsBatching.fireDue (h : n.IsBatching) (now : Instant) :
    Passes n (n.fireDue now).1 [] (n.fireDue now).2 := by
  have hchanges := h.steps (fun _ task hn => hn.fireChanges task) (dueBy now n.changes.tasks)
  have herrors := hchanges.batching.steps (fun _ task hn => hn.fireErrors task)
  exact hchanges.goOn (herrors _)

end Notifier

/-! ## Runs -/

/-- What may happen to a notifier.  A callback need not end in the same way whenever it is called,
so between two acts other callbacks may take the place of those that were there. -/
inductive NotifierAct where
  | push (now : Instant) (runtime : Bool) (change : Change)
  | pushError (now : Instant) (runtime : Bool) (e : WatchError)
  | advance (now : Instant)
  | start (disk : Disk) (runtime : Bool)
  | exchange (onBatch : Callback (Path × List Change))
      (onErrors : Option (Callback (List WatchError)))
  | stop

namespace NotifierAct

/-- The change that comes in. -/
def pushed : NotifierAct → List Change
  | push _ _ change => [change]
  | _ => []

/-- Whether the act is a stop. -/
def isStop : NotifierAct → Bool
  | stop => true
  | _ => false

end NotifierAct

/-- What happened to a notifier, each time with the calls of the callbacks that were made. -/
abbrev NotifierHistory := List (NotifierAct × List Delivery)

namespace NotifierHistory

/-- The changes that came in. -/
def pushed (h : NotifierHistory) : List Change := h.flatMap fun e => e.1.pushed

/-- The batches that were handed out. -/
def batches (h : NotifierHistory) : PendingChanges := h.flatMap fun e => Delivery.batches e.2

/-- What happened after the last stop. -/
def sinceStop (h : NotifierHistory) : NotifierHistory := h.rtakeWhile fun e => !e.1.isStop

variable {h late : NotifierHistory} {a : NotifierAct} {ds es : List Delivery}

theorem pushed_concat : pushed (h ++ [(a, ds)]) = h.pushed ++ a.pushed := by
  rw [pushed, List.flatMap_append, List.flatMap_singleton]
  rfl

theorem batches_concat : batches (h ++ [(a, ds)]) = h.batches ++ Delivery.batches ds := by
  rw [batches, List.flatMap_append, List.flatMap_singleton]
  rfl

theorem sinceStop_stop : sinceStop (h ++ [(.stop, ds)]) = [] :=
  List.rtakeWhile_concat_neg _ _ _ (by simp [NotifierAct.isStop])

theorem sinceStop_concat (ha : a.isStop = false) :
    sinceStop (h ++ [(a, ds)]) = h.sinceStop ++ [(a, ds)] :=
  List.rtakeWhile_concat_pos _ _ _ (by rw [ha]; rfl)

/-- A stop with what followed it in a history is the last act of the history, or stood before the
last one. -/
theorem eq_or_exists_of_stop_suffix (hlate : (.stop, es) :: late <:+ h ++ [(a, ds)]) :
    late = [] ∧ a = .stop ∧ ds = es ∨
      ∃ older, late = older ++ [(a, ds)] ∧ (.stop, es) :: older <:+ h := by
  rcases List.suffix_concat_iff.1 hlate with hnil | ⟨front, heq, hfront⟩
  · cases hnil
  · cases front with
    | nil =>
      cases heq
      exact .inl ⟨rfl, rfl, rfl⟩
    | cons first older =>
      rw [List.cons_append, List.cons.injEq] at heq
      obtain ⟨rfl, rfl⟩ := heq
      exact .inr ⟨older, rfl, hfront⟩

end NotifierHistory

namespace Notifier

variable {L : Type} {n m o : Notifier L} {h : NotifierHistory} {a : NotifierAct}
  {ds : List Delivery}

/-- What is true of a notifier that started as `n`, with its history: since the last stop every
change that came in was handed out or is pending, in order, and after any stop nothing was handed
out but what came in after it. -/
structure Accounts (n : Notifier L) (h : NotifierHistory) (m : Notifier L) : Prop where
  batching : m.IsBatching
  roots : m.roots = n.roots
  sinceStop : ∀ r, under r h.sinceStop.batches ++ under r m.changes.pending =
    n.filedUnder r h.sinceStop.pushed
  ne_nil : ∀ b ∈ h.batches, b.2 ≠ []
  afterStop : ∀ (ds : List Delivery) (late : NotifierHistory), (.stop, ds) :: late <:+ h → ds = [] ∧
    ∀ r, (under r late.batches ++ under r m.changes.pending).Sublist (n.filedUnder r late.pushed)

theorem accounts_nil (hn : n.IsBatching) (hpending : n.changes.pending = []) : Accounts n [] n where
  batching := hn
  roots := rfl
  sinceStop r := by rw [hpending]; rfl
  ne_nil := nofun
  afterStop ds late h := by
    rw [List.suffix_nil] at h
    cases h

/-- What passes in the last act is added to what passed before. -/
theorem Passes.under_concat (hpass : Passes m o a.pushed ds) (r : Path) :
    under r (NotifierHistory.batches (h ++ [(a, ds)])) ++ under r o.changes.pending =
      under r h.batches ++ under r m.changes.pending ++ m.filedUnder r a.pushed := by
  rw [NotifierHistory.batches_concat, under_append, List.append_assoc, hpass.kept,
    List.append_assoc]

/-- An act that lets pass what comes in keeps the account. -/
theorem Accounts.concat (hacc : Accounts n h m) (ha : a.isStop = false)
    (hpass : Passes m o a.pushed ds) : Accounts n (h ++ [(a, ds)]) o where
  batching := hpass.batching
  roots := hpass.roots.trans hacc.roots
  sinceStop r := by
    rw [NotifierHistory.sinceStop_concat ha, hpass.under_concat, hacc.sinceStop,
      filedUnder_congr hacc.roots, NotifierHistory.pushed_concat, filedUnder_append]
  ne_nil b hb := by
    rw [NotifierHistory.batches_concat, List.mem_append] at hb
    exact hb.elim (hacc.ne_nil b) (hpass.ne_nil b)
  afterStop es late hlate := by
    rcases NotifierHistory.eq_or_exists_of_stop_suffix hlate with ⟨-, rfl, -⟩ | ⟨older, rfl, hold⟩
    · cases ha
    · obtain ⟨hnil, hsub⟩ := hacc.afterStop es older hold
      refine ⟨hnil, fun r => ?_⟩
      rw [hpass.under_concat, filedUnder_congr hacc.roots, NotifierHistory.pushed_concat,
        filedUnder_append]
      exact (hsub r).append (List.Sublist.refl _)

/-- A stop hands out nothing and leaves nothing. -/
theorem Accounts.stop (hacc : Accounts n h m) : Accounts n (h ++ [(.stop, [])]) m.stopWatching where
  batching := ⟨hacc.batching.handler, isFiled_nil⟩
  roots := hacc.roots
  sinceStop r := by
    rw [NotifierHistory.sinceStop_stop]
    rfl
  ne_nil b hb := by
    rw [NotifierHistory.batches_concat, List.mem_append] at hb
    exact hb.elim (hacc.ne_nil b) nofun
  afterStop es late hlate := by
    rcases NotifierHistory.eq_or_exists_of_stop_suffix hlate with ⟨rfl, -, rfl⟩ | ⟨older, rfl, hold⟩
    · exact ⟨rfl, fun r => List.nil_sublist _⟩
    · obtain ⟨hnil, hsub⟩ := hacc.afterStop es older hold
      refine ⟨hnil, fun r => ?_⟩
      rw [NotifierHistory.batches_concat, NotifierHistory.pushed_concat]
      show (under r (older.batches ++ []) ++ []).Sublist (n.filedUnder r (older.pushed ++ []))
      rw [List.append_nil, List.append_nil, List.append_nil]
      exact (List.sublist_append_left _ _).trans (hsub r)

variable [Limiter L]

/-- The notifier after an act, and the calls that were made. -/
def act (n : Notifier L) : NotifierAct → Notifier L × List Delivery
  | .push now runtime change => n.pushChange now runtime change
  | .pushError now runtime e => n.pushError now runtime e
  | .advance now => n.fireDue now
  | .start disk runtime => ((n.startWatching disk runtime).2, [])
  | .exchange onBatch onErrors =>
    ({ n with handlers := { n.handlers with batch := some onBatch, errors := onErrors } }, [])
  | .stop => (n.stopWatching, [])

/-- From `n` a history may lead to a state. -/
inductive Runs (n : Notifier L) : NotifierHistory → Notifier L → Prop
  | rest : Runs n [] n
  | act {h : NotifierHistory} {m : Notifier L} (a : NotifierAct) (hrun : Runs n h m) :
      Runs n (h ++ [(a, (m.act a).2)]) (m.act a).1

/-- **Any act keeps the account.** -/
theorem Accounts.act (hacc : Accounts n h m) (a : NotifierAct) :
    Accounts n (h ++ [(a, (m.act a).2)]) (m.act a).1 := by
  have hm := hacc.batching
  cases a with
  | push now runtime change => exact hacc.concat rfl (hm.pushChange now runtime change)
  | pushError now runtime e => exact hacc.concat rfl (hm.pushError now runtime e)
  | advance now => exact hacc.concat rfl (hm.fireDue now)
  | start disk runtime => exact hacc.concat rfl (hm.passes_nil rfl hm.handler rfl rfl)
  | exchange onBatch onErrors => exact hacc.concat rfl (hm.passes_nil rfl rfl rfl rfl)
  | stop => exact hacc.stop

/-- **No change is lost, repeated, put elsewhere or moved before an earlier one.**  Since the last
stop, the changes that were handed out under a path and those that are pending under it are together
the changes that came in and belong there, in the order in which they came; no batch is empty; and a
stop hands out nothing, nor is after it anything handed out but what came in after it. -/
theorem accounts_of_runs {disk : Disk} {c : NotifierConfig} {limiter : L}
    (hnew : Notifier.new disk c limiter = .ok n) (hbatch : c.handlers.batch.isSome)
    (hrun : Runs n h m) :
    (∀ r, under r h.sinceStop.batches ++ under r m.changes.pending =
      n.filedUnder r h.sinceStop.pushed) ∧ (∀ b ∈ h.batches, b.2 ≠ []) ∧
    ∀ (ds : List Delivery) (late : NotifierHistory), (.stop, ds) :: late <:+ h → ds = [] ∧
      ∀ r, (under r late.batches).Sublist (n.filedUnder r late.pushed) := by
  obtain ⟨hhandlers, hchanges, -, -⟩ := of_new hnew
  have hpending : n.changes.pending = [] := by rw [hchanges]; rfl
  have hn : n.IsBatching := ⟨by rw [hhandlers]; exact hbatch, by rw [hpending]; exact isFiled_nil⟩
  have hacc : Accounts n h m := by
    induction hrun with
    | rest => exact accounts_nil hn hpending
    | act a _ ih => exact ih.act a
  refine ⟨hacc.sinceStop, hacc.ne_nil, fun ds late hlate => ?_⟩
  obtain ⟨hnil, hsub⟩ := hacc.afterStop ds late hlate
  exact ⟨hnil, fun r => (List.sublist_append_left _ _).trans (hsub r)⟩

/-- A directory and nothing else. -/
def emptyDirectory : Disk := ⟨[([[114]], .dir)], []⟩

/-- A notifier for the directory, whose callback always panics. -/
def panicking : NotifierConfig :=
  ⟨[⟨[47, 114]⟩], ⟨1, 0⟩, false, ⟨some fun _ => .panicked .value, none, none⟩⟩

/-- A change of a file in the directory. -/
def changeOf (name : UInt8) : Change := ⟨⟨[47, 114, 47, name]⟩, .write⟩

/-- A change is forgotten at a stop, and the one after it is handed out although the callback
panics. -/
theorem accounts_of_forgotten : ∃ (n m : Notifier (Bucket Float)) (h : NotifierHistory),
    Notifier.new emptyDirectory panicking (Bucket.new 1 0 0) = .ok n ∧
      panicking.handlers.batch.isSome ∧ Runs n h m ∧ h.pushed = [changeOf 97, changeOf 98] ∧
      under ⟨[47, 114]⟩ h.sinceStop.batches = [changeOf 98] := by
  obtain ⟨n, hnew⟩ : ∃ n : Notifier (Bucket Float),
      Notifier.new emptyDirectory panicking (Bucket.new 1 0 0) = .ok n := ⟨_, rfl⟩
  have hrun := Runs.act (.push 0 false (changeOf 98)) <| .act .stop <|
    .act (.push 0 true (changeOf 97)) (.rest (n := n))
  obtain ⟨haccount, -, -⟩ := accounts_of_runs hnew rfl hrun
  refine ⟨n, _, _, hnew, rfl, hrun, rfl, ?_⟩
  have hall := haccount ⟨[47, 114]⟩
  cases hnew
  rw [← List.append_nil (under _ _)]
  exact hall

end Notifier

end CertRotation
