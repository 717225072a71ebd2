import CertRotation.Proofs.Watch.Batches

/-!
# The lanes do not meet

Changes and errors share a notifier, and nothing else: each lane has what is pending in it, its
limiter, its generations and its timers to itself.  So somebody who watches one lane, that is, what
comes in to it, what is handed out of it and what happens to the notifier as a whole, cannot tell
what goes through the other one.  A flood of errors holds up no change.

That is a statement about two runs, one of them without what came in to the other lane.  The two
are kept side by side, and at every moment they differ in the other lane only.

* `LaneKind`, `NotifierAct.concerns`, `NotifierHistory.seenIn` — a lane, the acts that concern it,
  and what is seen of a history there;
* `Notifier.Alike` — two notifiers that differ in the other lane only;
* `Notifier.ActsIn` — what is done to a notifier stays in a lane and does not look at the other one;
  everything that a notifier does is made of such steps;
* `Notifier.keepsAlike_act`, `Notifier.act_unnoticed` — an act comes to the same in a lane whatever
  the other one holds, and what comes in to the other one is not noticed;
* `Notifier.seenIn_history` — **what is seen in a lane does not depend on the other lane**.
-/

set_option autoImplicit false

namespace CertRotation

/-! ## What is seen in a lane -/

/-- One of the lanes of a notifier. -/
inductive LaneKind where
  | changes
  | errors
  deriving DecidableEq

/-- The lane beside this one. -/
def LaneKind.other : LaneKind → LaneKind
  | changes => errors
  | errors => changes

/-- The lane that a call delivers from. -/
def Delivery.lane : Delivery → LaneKind
  | batch .. | signal _ => .changes
  | errors .. => .errors

/-- The calls that deliver from a lane. -/
def Delivery.ofLane (lane : LaneKind) (ds : List Delivery) : List Delivery :=
  ds.filter fun d => d.lane = lane

/-- Whether an act concerns a lane: it is not an item that comes in to the other one. -/
def NotifierAct.concerns (lane : LaneKind) : NotifierAct → Bool
  | push .. => lane = .changes
  | pushError .. => lane = .errors
  | advance _ | start .. | exchange .. | stop => true

/-- What is seen of a history in a lane: the acts that concern it and, each in its place, the calls
that deliver from it. -/
def NotifierHistory.seenIn (lane : LaneKind) (h : NotifierHistory) :
    List (NotifierAct ⊕ Delivery) :=
  h.flatMap fun e =>
    (if e.1.concerns lane then [.inl e.1] else []) ++ (Delivery.ofLane lane e.2).map .inr

namespace Notifier

variable {L : Type} {n m o : Notifier L} {lane : LaneKind}

/-- What happens to a notifier when some acts are done to it in order. -/
def history [Limiter L] (n : Notifier L) : List NotifierAct → NotifierHistory
  | [] => []
  | a :: rest => (a, (n.act a).2) :: history (n.act a).1 rest

/-! ## Notifiers that differ in the other lane only -/

/-- The notifiers are the same, but for what is in the lane beside `lane`. -/
def Alike (lane : LaneKind) (n m : Notifier L) : Prop :=
  match lane with
  | .changes => ∃ errors, m = { n with errors := errors }
  | .errors => ∃ changes, m = { n with changes := changes }

theorem Alike.refl (lane : LaneKind) (n : Notifier L) : Alike lane n n := by
  cases lane with
  | changes => exact ⟨n.errors, rfl⟩
  | errors => exact ⟨n.changes, rfl⟩

theorem Alike.symm (h : Alike lane n m) : Alike lane m n := by
  cases lane with
  | changes =>
    obtain ⟨errors, rfl⟩ := h
    exact ⟨n.errors, rfl⟩
  | errors =>
    obtain ⟨changes, rfl⟩ := h
    exact ⟨n.changes, rfl⟩

theorem Alike.trans (h : Alike lane n m) (h' : Alike lane m o) : Alike lane n o := by
  cases lane with
  | changes =>
    obtain ⟨errors, rfl⟩ := h
    obtain ⟨errors', rfl⟩ := h'
    exact ⟨errors', rfl⟩
  | errors =>
    obtain ⟨changes, rfl⟩ := h
    obtain ⟨changes', rfl⟩ := h'
    exact ⟨changes', rfl⟩

/-! ## What stays in a lane -/

/-- Something that is done to a notifier stays in a lane. -/
structure ActsIn (lane : LaneKind) (f : Notifier L → Notifier L × List Delivery) : Prop where
  /-- It does not look at the other lane. -/
  alike : ∀ n m, Alike lane n m → Alike lane (f n).1 (f m).1 ∧ (f n).2 = (f m).2
  /-- It leaves the other lane as it is. -/
  spares : ∀ n, Alike lane.other n (f n).1
  /-- It delivers nothing from the other lane. -/
  delivers : ∀ n, ∀ d ∈ (f n).2, d.lane = lane

/-- Something is done to the lane alone, and the errors do not matter to it. -/
theorem actsIn_changes (g : Notifier L → Lane L PendingChanges)
    (hg : ∀ n errors, g { n with errors := errors } = g n) :
    ActsIn .changes fun n => ({ n with changes := g n }, []) where
  alike := by
    rintro n m ⟨errors, rfl⟩
    rw [hg n errors]
    exact ⟨⟨errors, rfl⟩, rfl⟩
  spares n := ⟨_, rfl⟩
  delivers := by simp

theorem actsIn_errors (g : Notifier L → Lane L (List WatchError))
    (hg : ∀ n changes, g { n with changes := changes } = g n) :
    ActsIn .errors fun n => ({ n with errors := g n }, []) where
  alike := by
    rintro n m ⟨changes, rfl⟩
    rw [hg n changes]
    exact ⟨⟨changes, rfl⟩, rfl⟩
  spares n := ⟨_, rfl⟩
  delivers := by simp

/-- What is done one after the other stays in a lane if each of the two does. -/
theorem ActsIn.andThen {f g : Notifier L → Notifier L × List Delivery} (hf : ActsIn lane f)
    (hg : ActsIn lane g) :
    ActsIn lane fun n => ((g (f n).1).1, (f n).2 ++ (g (f n).1).2) where
  alike n m hnm := by
    obtain ⟨hfirst, hout⟩ := hf.alike n m hnm
    obtain ⟨hnext, hmore⟩ := hg.alike _ _ hfirst
    exact ⟨hnext, congrArg₂ (· ++ ·) hout hmore⟩
  spares n := (hf.spares n).trans (hg.spares _)
  delivers n d hd := by
    rcases List.mem_append.1 hd with hd | hd
    · exact hf.delivers n d hd
    · exact hg.delivers _ d hd

/-- A choice of what to do, made without a look at the other lane. -/
theorem ActsIn.choose {α : Type} {f : α → Notifier L → Notifier L × List Delivery}
    (hf : ∀ a, ActsIn lane (f a)) (choice : Notifier L → α)
    (hchoice : ∀ n m, Alike lane n m → choice n = choice m) :
    ActsIn lane fun n => f (choice n) n where
  alike n m hnm := by
    rw [hchoice n m hnm]
    exact (hf _).alike n m hnm
  spares n := (hf _).spares n
  delivers n := (hf _).delivers n

theorem ActsIn.ite {f g : Notifier L → Notifier L × List Delivery} (hf : ActsIn lane f)
    (hg : ActsIn lane g) (choice : Notifier L → Bool)
    (hchoice : ∀ n m, Alike lane n m → choice n = choice m) :
    ActsIn lane fun n => if choice n then f n else g n := by
  refine ActsIn.choose (f := fun b n => if b then f n else g n) (fun b => ?_) choice hchoice
  cases b with
  | true => exact hf
  | false => exact hg

theorem ActsIn.steps {α : Type} {step : Notifier L → α → Notifier L × List Delivery}
    (hstep : ∀ a, ActsIn lane fun n => step n a) (todo : List α) :
    ActsIn lane fun n => Notifier.steps step n todo := by
  induction todo with
  | nil =>
    refine ⟨fun n m hnm => ⟨hnm, rfl⟩, fun n => Alike.refl _ n, fun n => ?_⟩
    exact List.forall_mem_nil _
  | cons a todo ih => exact (hstep a).andThen ih

theorem actsIn_flushChanges : ActsIn (L := L) .changes flushChanges where
  alike := by
    rintro n m ⟨errors, rfl⟩
    rw [flushChanges, flushChanges]
    split
    · exact ⟨⟨errors, rfl⟩, rfl⟩
    · exact ⟨⟨errors, rfl⟩, rfl⟩
  spares n := by
    rw [flushChanges]
    split
    · exact ⟨n.changes, rfl⟩
    · exact ⟨_, rfl⟩
  delivers n d hd := by
    rw [flushChanges] at hd
    split at hd
    · cases hd
    · rw [deliver] at hd
      split at hd
      · obtain ⟨b, -, rfl⟩ := List.mem_map.1 hd
        rfl
      · rw [List.mem_singleton.1 hd]
        rfl
      · cases hd

theorem actsIn_flushErrors : ActsIn (L := L) .errors flushErrors where
  alike := by
    rintro n m ⟨changes, rfl⟩
    rw [flushErrors, flushErrors]
    split
    · exact ⟨⟨changes, rfl⟩, rfl⟩
    · exact ⟨⟨changes, rfl⟩, rfl⟩
  spares n := by
    rw [flushErrors]
    split
    · exact ⟨n.errors, rfl⟩
    · exact ⟨_, rfl⟩
  delivers n d hd := by
    rw [flushErrors] at hd
    split at hd
    · cases hd
    · dsimp only at hd
      split at hd
      · rw [List.mem_singleton.1 hd]
        rfl
      · cases hd

/-! ## What a notifier does -/

theorem actsIn_pushChange [Limiter L] (now : Instant) (runtime : Bool) (change : Change) :
    ActsIn (L := L) .changes fun n => n.pushChange now runtime change := by
  have hfile := actsIn_changes (L := L) (fun n => { n.changes with
    pending := n.changes.pending.file (n.rootFor change.path) change }) fun _ _ => rfl
  have hacquire := actsIn_changes (L := L) (fun n => (n.changes.acquire now).2) fun _ _ => rfl
  have hgrant := (hacquire.andThen actsIn_flushChanges).ite hacquire
    (fun n => (n.changes.acquire now).1) (by rintro n m ⟨errors, rfl⟩; rfl)
  have hfirst := hfile.andThen hgrant
  cases runtime with
  | true =>
    have harm := actsIn_changes (L := L) (fun n => n.changes.arm now n.interval) fun _ _ => rfl
    have hall := hfirst.andThen harm
    simp only [List.nil_append, List.append_nil] at hall
    exact hall
  | false =>
    have hdisarm := actsIn_changes (L := L) (fun n => n.changes.disarm) fun _ _ => rfl
    have hall := hfirst.andThen (hdisarm.andThen actsIn_flushChanges)
    simp only [List.nil_append] at hall
    exact hall

theorem actsIn_pushError [Limiter L] (now : Instant) (runtime : Bool) (e : WatchError) :
    ActsIn (L := L) .errors fun n => n.pushError now runtime e := by
  have hadd := actsIn_errors (L := L) (fun n => { n.errors with
    pending := n.errors.pending ++ [e] }) fun _ _ => rfl
  have hacquire := actsIn_errors (L := L) (fun n => (n.errors.acquire now).2) fun _ _ => rfl
  have hgrant := (hacquire.andThen actsIn_flushErrors).ite hacquire
    (fun n => (n.errors.acquire now).1) (by rintro n m ⟨changes, rfl⟩; rfl)
  have hfirst := hadd.andThen hgrant
  cases runtime with
  | true =>
    have harm := actsIn_errors (L := L) (fun n => n.errors.arm now n.interval) fun _ _ => rfl
    have hall := hfirst.andThen harm
    simp only [List.nil_append, List.append_nil] at hall
    exact hall
  | false =>
    have hdisarm := actsIn_errors (L := L) (fun n => n.errors.disarm) fun _ _ => rfl
    have hall := hfirst.andThen (hdisarm.andThen actsIn_flushErrors)
    simp only [List.nil_append] at hall
    exact hall

theorem actsIn_fireChanges (task : TimerTask) :
    ActsIn (L := L) .changes fun n => n.fireChanges task := by
  have hfinish := actsIn_changes (L := L) (fun n => n.changes.finish task) fun _ _ => rfl
  exact (hfinish.andThen actsIn_flushChanges).ite hfinish (fun n => n.changes.isCurrent task)
    (by rintro n m ⟨errors, rfl⟩; rfl)

theorem actsIn_fireErrors (task : TimerTask) :
    ActsIn (L := L) .errors fun n => n.fireErrors task := by
  have hfinish := actsIn_errors (L := L) (fun n => n.errors.finish task) fun _ _ => rfl
  exact (hfinish.andThen actsIn_flushErrors).ite hfinish (fun n => n.errors.isCurrent task)
    (by rintro n m ⟨changes, rfl⟩; rfl)

/-! ## What is seen of it -/

theorem ofLane_append (ds es : List Delivery) :
    Delivery.ofLane lane (ds ++ es) = Delivery.ofLane lane ds ++ Delivery.ofLane lane es :=
  List.filter_append ..

/-- What is done to notifiers that are alike in a lane leaves them alike, and the same is delivered
from the lane. -/
def KeepsAlike (lane : LaneKind) (f : Notifier L → Notifier L × List Delivery) : Prop :=
  ∀ n m, Alike lane n m → Alike lane (f n).1 (f m).1 ∧
    Delivery.ofLane lane (f n).2 = Delivery.ofLane lane (f m).2

theorem KeepsAlike.andThen {f g : Notifier L → Notifier L × List Delivery}
    (hf : KeepsAlike lane f) (hg : KeepsAlike lane g) :
    KeepsAlike lane fun n => ((g (f n).1).1, (f n).2 ++ (g (f n).1).2) := by
  intro n m hnm
  obtain ⟨hfirst, hout⟩ := hf n m hnm
  obtain ⟨hnext, hmore⟩ := hg _ _ hfirst
  refine ⟨hnext, ?_⟩
  rw [ofLane_append, ofLane_append, hout, hmore]

theorem other_other (lane : LaneKind) : lane.other.other = lane := by
  cases lane <;> rfl

theorem eq_or_eq_other (lane kind : LaneKind) : kind = lane ∨ kind = lane.other := by
  cases lane <;> cases kind <;> decide

/-- **What stays in the other lane is not noticed in this one.** -/
theorem ActsIn.unnoticed {f : Notifier L → Notifier L × List Delivery} (h : ActsIn lane.other f)
    (n : Notifier L) : Alike lane n (f n).1 ∧ Delivery.ofLane lane (f n).2 = [] := by
  have hspares := h.spares n
  rw [other_other] at hspares
  refine ⟨hspares, List.filter_eq_nil_iff.2 fun d hd => ?_⟩
  rw [h.delivers n d hd]
  cases lane with
  | changes => decide
  | errors => decide

/-- **What stays in one lane, be it this one or the other, keeps alike what is alike.** -/
theorem ActsIn.keepsAlike {kind : LaneKind} {f : Notifier L → Notifier L × List Delivery}
    (h : ActsIn kind f) (lane : LaneKind) : KeepsAlike lane f := by
  intro n m hnm
  rcases eq_or_eq_other lane kind with rfl | rfl
  · obtain ⟨halike, hout⟩ := h.alike n m hnm
    exact ⟨halike, congrArg _ hout⟩
  · obtain ⟨hn, hnone⟩ := h.unnoticed n
    obtain ⟨hm, hnone'⟩ := h.unnoticed m
    exact ⟨(hn.symm.trans hnm).trans hm, hnone.trans hnone'.symm⟩

/-- When timers go off, those of each lane stay in it. -/
theorem keepsAlike_fireDue (lane : LaneKind) (now : Instant) :
    KeepsAlike (L := L) lane fun n => n.fireDue now := by
  have hchanges := ActsIn.choose (L := L) (ActsIn.steps actsIn_fireChanges)
    (fun n => dueBy now n.changes.tasks) (by rintro n m ⟨errors, rfl⟩; rfl)
  have herrors := ActsIn.choose (L := L) (ActsIn.steps actsIn_fireErrors)
    (fun n => dueBy now n.errors.tasks) (by rintro n m ⟨changes, rfl⟩; rfl)
  exact (hchanges.keepsAlike lane).andThen (herrors.keepsAlike lane)

/-- What delivers nothing and does not mix the lanes keeps alike what is alike. -/
theorem keepsAlike_quiet {f : Notifier L → Notifier L}
    (hchanges : ∀ n errors, ∃ errors', f { n with errors := errors } =
      { f n with errors := errors' })
    (herrors : ∀ n changes, ∃ changes', f { n with changes := changes } =
      { f n with changes := changes' }) (lane : LaneKind) :
    KeepsAlike lane fun n => (f n, []) := by
  intro n m hnm
  refine ⟨?_, rfl⟩
  cases lane with
  | changes =>
    obtain ⟨errors, rfl⟩ := hnm
    exact hchanges n errors
  | errors =>
    obtain ⟨changes, rfl⟩ := hnm
    exact herrors n changes

variable [Limiter L]

/-- **Any act** comes to the same in a lane whatever the other one holds. -/
theorem keepsAlike_act (lane : LaneKind) (a : NotifierAct) :
    KeepsAlike (L := L) lane fun n => n.act a := by
  cases a with
  | push now runtime change => exact (actsIn_pushChange now runtime change).keepsAlike lane
  | pushError now runtime e => exact (actsIn_pushError now runtime e).keepsAlike lane
  | advance now => exact keepsAlike_fireDue lane now
  | start disk runtime =>
    exact keepsAlike_quiet (fun _ errors => ⟨errors, rfl⟩) (fun _ changes => ⟨changes, rfl⟩) lane
  | exchange onBatch onErrors =>
    exact keepsAlike_quiet (fun _ errors => ⟨errors, rfl⟩) (fun _ changes => ⟨changes, rfl⟩) lane
  | stop => exact keepsAlike_quiet (fun _ _ => ⟨_, rfl⟩) (fun _ _ => ⟨_, rfl⟩) lane

/-- **What comes in to the other lane** is not noticed in this one. -/
theorem act_unnoticed {a : NotifierAct} (ha : a.concerns lane = false) (n : Notifier L) :
    Alike lane n (n.act a).1 ∧ Delivery.ofLane lane (n.act a).2 = [] := by
  cases lane with
  | changes =>
    cases a with
    | pushError now runtime e =>
      have hother : ActsIn LaneKind.changes.other fun n : Notifier L => n.pushError now runtime e :=
        actsIn_pushError now runtime e
      exact hother.unnoticed n
    | _ => cases ha
  | errors =>
    cases a with
    | push now runtime change =>
      have hother :
          ActsIn LaneKind.errors.other fun n : Notifier L => n.pushChange now runtime change :=
        actsIn_pushChange now runtime change
      exact hother.unnoticed n
    | _ => cases ha

/-- **What is seen in a lane does not depend on what comes in to the other one.**  Whatever is done
to a notifier, in each lane the same calls are made at the same points of the run as if nothing had
come in to the other lane at all. -/
theorem seenIn_history (lane : LaneKind) (n : Notifier L) (acts : List NotifierAct) :
    (n.history acts).seenIn lane =
      (n.history (acts.filter (NotifierAct.concerns lane))).seenIn lane := by
  suffices hside : ∀ m, Alike lane n m → (n.history acts).seenIn lane =
      (m.history (acts.filter (NotifierAct.concerns lane))).seenIn lane from
    hside n (Alike.refl lane n)
  induction acts generalizing n with
  | nil =>
    intro m _
    rfl
  | cons a rest ih =>
    intro m hnm
    cases ha : a.concerns lane with
    | true =>
      obtain ⟨hnext, hout⟩ := keepsAlike_act lane a n m hnm
      have hrest := ih (n.act a).1 (m.act a).1 hnext
      rw [List.filter_cons_of_pos ha]
      simp only [history, NotifierHistory.seenIn, List.flatMap_cons] at hrest ⊢
      rw [hout, hrest]
    | false =>
      obtain ⟨hnext, hnone⟩ := act_unnoticed ha n
      have hrest := ih (n.act a).1 m (hnext.symm.trans hnm)
      rw [List.filter_cons_of_neg (by rw [ha]; exact Bool.false_ne_true)]
      simp only [history, NotifierHistory.seenIn, List.flatMap_cons] at hrest ⊢
      rw [hnone, ha, hrest]
      rfl

end Notifier

end CertRotation
