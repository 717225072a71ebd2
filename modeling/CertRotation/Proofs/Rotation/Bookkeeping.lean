import CertRotation.Proofs.Rotation.Bundle
import CertRotation.Proofs.Rotation.Runs

/-!
# The books of a rotator

The counters of the record, the material in place and the calls of the subscribers are brought up to
date one after the other, and by nothing but the end of a reload.  So after any run they agree with
the list of the reloads that are over.

* `Rotator.NoReloadEnds`, `Rotator.ReloadEnds` — the two kinds of steps, and
  `Rotator.Moves.noReloadEnds_or_reloadEnds`: there are no others;
* `Rotator.KeepsBooks` — what a rotator shows is what its history says, and every step keeps it so;
* `Rotator.KeepsBooks.heard_eq` — a subscriber has heard of each reload since it subscribed, once
  and in their order;
* `LiveRotator.books_of_runs` — the books are right after every run.
-/

set_option autoImplicit false

namespace CertRotation

namespace Completion

/-- The material that the reload gave. -/
def material? (c : Completion) : Option Material := c.outcome.toOption

/-- The message of the reload, if it failed. -/
def message? (c : Completion) : Option String :=
  match c.outcome with
  | .ok _ => none
  | .error e => some e.message

end Completion

namespace RotatorHistory

variable {h es : RotatorHistory}

/-- What the reloads gave that succeeded. -/
def materials (h : RotatorHistory) : List Material := h.completions.filterMap Completion.material?

/-- The messages of the reloads that failed. -/
def messages (h : RotatorHistory) : List String := h.completions.filterMap Completion.message?

/-- What a subscriber has been called with, by the number of subscribers before it. -/
def heard (subscriber : Nat) (h : RotatorHistory) : List ReloadOutcome :=
  h.completions.filterMap fun c => c.calls[subscriber]?.map fun _ => c.outcome

theorem materials_append : materials (h ++ es) = h.materials ++ es.materials := by
  rw [materials, completions_append, List.filterMap_append]
  rfl

theorem messages_append : messages (h ++ es) = h.messages ++ es.messages := by
  rw [messages, completions_append, List.filterMap_append]
  rfl

/-- A reload that is over has succeeded or failed. -/
theorem length_materials_add_messages (h : RotatorHistory) :
    h.materials.length + h.messages.length = h.completions.length := by
  rw [materials, messages]
  induction h.completions with
  | nil => rfl
  | cons c rest ih =>
    obtain ⟨requester, outcome, calls⟩ := c
    cases outcome with
    | ok material =>
      rw [List.length_cons, ← ih]
      exact Nat.succ_add _ _
    | error e =>
      rw [List.length_cons, ← ih]
      rfl

end RotatorHistory

/-- Material that a directory has put together has one identity. -/
theorem CertDirectory.identity_of_assemble {d : CertDirectory} {readers : Readers} {disk : Disk}
    {m : Material} (hm : (d.assemble readers disk).1 = .ok m) : ∃ i, m.identities = [i] := by
  rw [CertDirectory.assemble] at hm
  split at hm
  · cases hm
  · exact (CertDirectory.of_get hm).1

namespace Rotator

variable {L : Type} {r r' : Rotator L} {h front rest es : RotatorHistory}

/-! ## What a step does -/

/-- With the events `es` no reload is over, and of what is in the books only the subscribers
change. -/
structure NoReloadEnds (r : Rotator L) (es : RotatorHistory) (r' : Rotator L) : Prop where
  completion : ∀ e ∈ es, e.completion? = none
  current : r'.current = r.current
  status : r'.status = r.status
  subscribers : r'.subscribers = es.foldl RotatorEvent.subscribers r.subscribers

/-- A reload is over: its outcome is recorded, and all subscribers are called with it. -/
structure ReloadEnds (r : Rotator L) (c : Completion) (r' : Rotator L) : Prop where
  identity : ∀ m, c.outcome = .ok m → ∃ i, m.identities = [i]
  calls : c.calls = r.subscribers.map fun callback => callback c.outcome
  current : r'.current = (r.record c.outcome).current
  status : r'.status = r.status.record c.outcome
  subscribers : r'.subscribers = r.subscribers

/-- **There are only these two kinds of steps.** -/
theorem Moves.noReloadEnds_or_reloadEnds (hmoves : r.Moves es r') :
    r.NoReloadEnds es r' ∨ ∃ reload c,
      es = [.attempted reload c.outcome (some c)] ∧ r.ReloadEnds c r' := by
  cases hmoves with
  | quiet directory watcher => exact .inl ⟨List.forall_mem_nil _, rfl, rfl, rfl⟩
  | relayed changes _ =>
    refine .inl ⟨List.forall_mem_map.2 fun _ _ => rfl, rfl, rfl, ?_⟩
    rw [List.foldl_map]
    exact (List.foldl_fixed ..).symm
  | dropped notifier change => exact .inl ⟨List.forall_mem_singleton.2 rfl, rfl, rfl, rfl⟩
  | entered _ _ _ _ requester => exact .inl ⟨List.forall_mem_singleton.2 rfl, rfl, rfl, rfl⟩
  | stopped => exact .inl ⟨List.forall_mem_singleton.2 rfl, rfl, rfl, rfl⟩
  | listening he =>
    refine .inl ⟨List.forall_mem_singleton.2 ?_, rfl, rfl, rfl⟩
    rcases he with ⟨callback, rfl⟩ | ⟨subscriber, callback, rfl⟩
    · rfl
    · rfl
  | paused _ _ e _ => exact .inl ⟨List.forall_mem_singleton.2 rfl, rfl, rfl, rfl⟩
  | @completed reload _ disk outcome houtcome directory now =>
    refine .inr ⟨reload, ⟨_, outcome, _⟩, rfl, ?_, rfl, rfl, rfl, rfl⟩
    rintro m rfl
    exact CertDirectory.identity_of_assemble houtcome

/-! ## The books -/

/-- **What a rotator shows is what its history says.** -/
structure KeepsBooks (r : Rotator L) (h : RotatorHistory) : Prop where
  reloads : r.status.reloads = h.materials.length
  failures : r.status.failures = h.messages.length
  /-- In place is what the last reload gave that succeeded. -/
  current : r.current = h.materials.getLast?
  identity : ∀ m ∈ h.materials, ∃ i, m.identities = [i]
  lastSuccess : r.status.lastSuccess.isSome ↔ 0 < r.status.reloads
  lastError : r.status.lastError = h.completions.getLast?.bind Completion.message?
  subscribers : r.subscribers = h.subscribers
  /-- At the end of a reload all who had subscribed are called with its outcome. -/
  calls : ∀ (front : RotatorHistory) reload outcome c rest,
    h = front ++ .attempted reload outcome (some c) :: rest →
      c.outcome = outcome ∧ c.calls = front.subscribers.map fun callback => callback outcome

/-- A new rotator has nothing in its books. -/
theorem keepsBooks_of_fromDirectory {disk : Disk} {directory : CertDirectory}
    {s : RotationSettings} {readers : Readers} {policy : RetryPolicy} {limiter : L}
    (hnew : fromDirectory disk directory s readers policy limiter = .ok r) : r.KeepsBooks [] := by
  obtain ⟨notifier, -, rfl⟩ := of_fromDirectory hnew
  exact ⟨rfl, rfl, rfl, nofun, by simp [ReloadStatus.initial], rfl, rfl, by simp⟩

/-- Where no reload is over the books stay as they are, but for the subscribers. -/
theorem KeepsBooks.noReloadEnds (hbooks : r.KeepsBooks h) (hstep : r.NoReloadEnds es r') :
    r'.KeepsBooks (h ++ es) := by
  have hnone : es.completions = [] := RotatorHistory.completions_eq_nil hstep.completion
  have hcompletions : RotatorHistory.completions (h ++ es) = h.completions := by
    rw [RotatorHistory.completions_append, hnone, List.append_nil]
  have hmaterials : RotatorHistory.materials (h ++ es) = h.materials := by
    rw [RotatorHistory.materials, hcompletions]
    rfl
  have hmessages : RotatorHistory.messages (h ++ es) = h.messages := by
    rw [RotatorHistory.messages, hcompletions]
    rfl
  refine ⟨?_, ?_, ?_, ?_, ?_, ?_, ?_, ?_⟩
  · rw [hstep.status, hmaterials, hbooks.reloads]
  · rw [hstep.status, hmessages, hbooks.failures]
  · rw [hstep.current, hmaterials, hbooks.current]
  · rw [hmaterials]
    exact hbooks.identity
  · rw [hstep.status]
    exact hbooks.lastSuccess
  · rw [hstep.status, hcompletions, hbooks.lastError]
  · rw [hstep.subscribers, hbooks.subscribers]
    exact (List.foldl_append ..).symm
  · intro front reload outcome c rest heq
    rcases RotatorHistory.of_append_eq heq with ⟨more, hbefore⟩ | ⟨mid, hafter, -⟩
    · exact hbooks.calls _ _ _ _ _ hbefore
    · have hmem : .attempted reload outcome (some c) ∈ es := by simp [hafter]
      cases hstep.completion _ hmem

/-- The end of a reload goes into the books. -/
theorem KeepsBooks.reloadEnds (hbooks : r.KeepsBooks h) (reload : RunningReload) {c : Completion}
    (hstep : r.ReloadEnds c r') : r'.KeepsBooks (h ++ [.attempted reload c.outcome (some c)]) := by
  obtain ⟨requester, outcome, calls⟩ := c
  obtain ⟨hidentity, hcalls, hcurrent, hstatus, hsubscribers⟩ := hstep
  have hlast : (RotatorHistory.completions
      (h ++ [.attempted reload outcome (some ⟨requester, outcome, calls⟩)])).getLast? =
        some ⟨requester, outcome, calls⟩ := by
    rw [RotatorHistory.completions_append]
    exact List.getLast?_concat ..
  refine ⟨?_, ?_, ?_, ?_, ?_, ?_, ?_, ?_⟩
  · rw [hstatus, RotatorHistory.materials_append, List.length_append, ← hbooks.reloads]
    cases outcome with
    | ok m => rfl
    | error e => rfl
  · rw [hstatus, RotatorHistory.messages_append, List.length_append, ← hbooks.failures]
    cases outcome with
    | ok m => rfl
    | error e => rfl
  · rw [hcurrent, RotatorHistory.materials_append, List.getLast?_append, ← hbooks.current]
    cases outcome with
    | ok m => rfl
    | error e => rfl
  · intro m hm
    rw [RotatorHistory.materials_append, List.mem_append] at hm
    rcases hm with hm | hm
    · exact hbooks.identity m hm
    · cases outcome with
      | ok new =>
        rw [List.mem_singleton.1 hm]
        exact hidentity new rfl
      | error e => cases hm
  · rw [hstatus]
    cases outcome with
    | ok m => simp [ReloadStatus.record]
    | error e => exact hbooks.lastSuccess
  · rw [hstatus, hlast]
    cases outcome with
    | ok m => rfl
    | error e => rfl
  · rw [hsubscribers, hbooks.subscribers, RotatorHistory.subscribers_concat]
    rfl
  · intro front reload' outcome' c rest heq
    rcases RotatorHistory.of_concat_eq heq with ⟨more, hbefore⟩ | ⟨rfl, hevent⟩
    · exact hbooks.calls _ _ _ _ _ hbefore
    · cases hevent
      rw [← hbooks.subscribers]
      exact ⟨rfl, hcalls⟩

/-- **Every step keeps the books.** -/
theorem KeepsBooks.moves (hbooks : r.KeepsBooks h) (hmoves : r.Moves es r') :
    r'.KeepsBooks (h ++ es) := by
  rcases hmoves.noReloadEnds_or_reloadEnds with hno | ⟨reload, c, rfl, hends⟩
  · exact hbooks.noReloadEnds hno
  · exact hbooks.reloadEnds reload hends

/-! ## What the books tell -/

/-- Material is in place as soon as a reload has succeeded. -/
theorem KeepsBooks.isSome_current_iff (hbooks : r.KeepsBooks h) :
    r.current.isSome ↔ 0 < r.status.reloads := by
  rw [hbooks.current, hbooks.reloads, List.getLast?_isSome, List.length_pos_iff]

/-- A handshake is given the identity of the material in place. -/
theorem KeepsBooks.served_eq (hbooks : r.KeepsBooks h) {m : Material} (hm : r.current = some m) :
    ∃ i, m.identities = [i] ∧ r.served = some i := by
  have hlast : h.materials.getLast? = some m := hbooks.current.symm.trans hm
  obtain ⟨i, hi⟩ := hbooks.identity m (List.mem_of_getLast? hlast)
  refine ⟨i, hi, ?_⟩
  rw [served, hm, Option.bind_some, Material.identity?, hi]
  rfl

theorem KeepsBooks.isSome_served_iff (hbooks : r.KeepsBooks h) :
    r.served.isSome ↔ 0 < r.status.reloads := by
  rw [← hbooks.isSome_current_iff]
  cases hcurrent : r.current with
  | none => rw [served, hcurrent]; rfl
  | some m =>
    obtain ⟨i, -, hi⟩ := hbooks.served_eq hcurrent
    rw [hi]
    rfl

/-- The outcome of the last reload is shown. -/
theorem KeepsBooks.shows_last (hbooks : r.KeepsBooks h) {c : Completion}
    (hlast : h.completions.getLast? = some c) : r.Shows c.outcome := by
  have herror : r.status.lastError = c.message? := by
    rw [hbooks.lastError, hlast]
    rfl
  obtain ⟨requester, outcome, calls⟩ := c
  cases outcome with
  | ok m =>
    obtain ⟨init, hinit⟩ := List.getLast?_eq_some_iff.1 hlast
    refine ⟨?_, herror⟩
    rw [hbooks.current, RotatorHistory.materials, hinit, List.filterMap_append]
    exact List.getLast?_concat ..
  | error e => exact herror

/-- **A subscriber has heard of each reload since it subscribed, once and in order.** -/
theorem KeepsBooks.heard_eq (hbooks : r.KeepsBooks h) {callback : Callback ReloadOutcome}
    (heq : h = front ++ .subscribed callback :: rest) :
    h.heard front.subscribers.length = rest.completions.map fun c => c.outcome := by
  have hfront : ∀ c ∈ front.completions, c.calls[front.subscribers.length]? = none := by
    intro c hc
    obtain ⟨before, reload, outcome, more, rfl⟩ := RotatorHistory.mem_completions hc
    rw [List.append_assoc] at heq
    obtain ⟨-, hcalls⟩ := hbooks.calls _ _ _ _ _ heq
    rw [hcalls, List.getElem?_eq_none_iff, List.length_map]
    exact RotatorHistory.length_subscribers_le
  have hrest : ∀ c ∈ rest.completions, ∃ call, c.calls[front.subscribers.length]? = some call := by
    intro c hc
    obtain ⟨before, reload, outcome, more, rfl⟩ := RotatorHistory.mem_completions hc
    rw [← List.cons_append, ← List.append_assoc] at heq
    obtain ⟨-, hcalls⟩ := hbooks.calls _ _ _ _ _ heq
    have hlt : front.subscribers.length <
        (RotatorHistory.subscribers (front ++ .subscribed callback :: before)).length := by
      calc front.subscribers.length
          < (RotatorHistory.subscribers (front ++ [.subscribed callback])).length := by
            rw [RotatorHistory.subscribers_concat]
            simp [RotatorEvent.subscribers]
        _ ≤ (RotatorHistory.subscribers ((front ++ [.subscribed callback]) ++ before)).length :=
            RotatorHistory.length_subscribers_le
        _ = _ := by rw [List.append_assoc, List.singleton_append]
    rw [hcalls]
    exact ⟨_, List.getElem?_eq_getElem (by rwa [List.length_map])⟩
  have hafter : rest.completions.filterMap (fun c =>
      c.calls[front.subscribers.length]?.map fun _ => c.outcome) =
        rest.completions.filterMap fun c => some c.outcome := by
    refine List.filterMap_congr fun c hc => ?_
    obtain ⟨call, hcall⟩ := hrest c hc
    rw [hcall]
    rfl
  have hbefore : front.completions.filterMap (fun c =>
      c.calls[front.subscribers.length]?.map fun _ => c.outcome) = [] := by
    refine List.filterMap_eq_nil_iff.2 fun c hc => ?_
    rw [hfront c hc]
    rfl
  calc h.heard front.subscribers.length
      = RotatorHistory.heard front.subscribers.length (front ++ .subscribed callback :: rest) := by
        rw [heq]
    _ = [] ++ rest.completions.filterMap (fun c => some c.outcome) := by
        rw [RotatorHistory.heard, RotatorHistory.completions_append, List.filterMap_append, hbefore,
          ← hafter]
        rfl
    _ = _ := by rw [List.nil_append, List.filterMap_eq_map']

end Rotator

open Rotator

namespace LiveRotator

variable {L : Type} [Limiter L] {s : LiveRotator L} {h : RotatorHistory}

theorem keepsBooks_of_runs {before disk : Disk} {now : Instant} {directory : CertDirectory}
    {settings : RotationSettings} {readers : Readers} {policy : RetryPolicy} {limiter : L}
    {r : Rotator L}
    (hnew : fromDirectory before directory settings readers policy limiter = .ok r)
    (hrun : Runs ⟨disk, now, r⟩ h s) : s.rotator.KeepsBooks h := by
  induction hrun with
  | rest => exact keepsBooks_of_fromDirectory hnew
  | step _ hstep ih => exact ih.moves hstep.moves

/-- A step at which no reload succeeds leaves the material in place and the date of the last
success. -/
theorem kept_of_step {t : LiveRotator L} {es : RotatorHistory} (hstep : s.Step es t)
    (hfailed : ∀ c ∈ es.completions, c.material? = none) :
    t.rotator.current = s.rotator.current ∧
      t.rotator.status.lastSuccess = s.rotator.status.lastSuccess := by
  rcases hstep.moves.noReloadEnds_or_reloadEnds with hno | ⟨reload, c, rfl, hends⟩
  · exact ⟨hno.current, by rw [hno.status]⟩
  · have hnone : c.material? = none := hfailed c List.mem_cons_self
    obtain ⟨requester, outcome, calls⟩ := c
    cases outcome with
    | ok m => cases hnone
    | error e => exact ⟨hends.current, by rw [hends.status]; rfl⟩

/-- **The books are right after every run** of a new rotator, whatever the disk does, whoever
starts, stops or asks for reloads, and whichever callbacks panic.

Every reload that is over has been counted once.  Material is in place if one of them has succeeded:
it is what the last such reload gave, and a handshake is given its identity.  The record has a date
of success if one has succeeded, and the message of the last reload if that one failed.  A step at
which no reload succeeds changes neither the material nor the date.  A subscriber has been called
for each reload that has ended since it subscribed, once, in their order, and with the outcome; at
the end of a reload all who had subscribed are called, each with the outcome that the reload gives
to who asked for it. -/
theorem books_of_runs {before disk : Disk} {now : Instant} {directory : CertDirectory}
    {settings : RotationSettings} {readers : Readers} {policy : RetryPolicy} {limiter : L}
    {r : Rotator L}
    (hnew : fromDirectory before directory settings readers policy limiter = .ok r)
    (hrun : Runs ⟨disk, now, r⟩ h s) :
    s.rotator.status.reloads + s.rotator.status.failures = h.completions.length ∧
      (s.rotator.current.isSome ↔ 0 < s.rotator.status.reloads) ∧
      s.rotator.current = h.materials.getLast? ∧
      (s.rotator.served.isSome ↔ 0 < s.rotator.status.reloads) ∧
      (∀ m, s.rotator.current = some m → ∃ i, m.identities = [i] ∧ s.rotator.served = some i) ∧
      (s.rotator.status.lastSuccess.isSome ↔ 0 < s.rotator.status.reloads) ∧
      s.rotator.status.lastError = h.completions.getLast?.bind Completion.message? ∧
      (∀ es t, s.Step es t → (∀ c ∈ es.completions, c.material? = none) →
        t.rotator.current = s.rotator.current ∧
          t.rotator.status.lastSuccess = s.rotator.status.lastSuccess) ∧
      (∀ (front : RotatorHistory) callback (rest : RotatorHistory),
        h = front ++ .subscribed callback :: rest →
          h.heard front.subscribers.length = rest.completions.map fun c => c.outcome) ∧
      ∀ (front : RotatorHistory) reload outcome c rest,
        h = front ++ .attempted reload outcome (some c) :: rest →
          c.outcome = outcome ∧
            c.calls = front.subscribers.map fun callback => callback outcome := by
  have hbooks := keepsBooks_of_runs hnew hrun
  have hcount : s.rotator.status.reloads + s.rotator.status.failures = h.completions.length := by
    rw [hbooks.reloads, hbooks.failures, h.length_materials_add_messages]
  exact ⟨hcount, hbooks.isSome_current_iff, hbooks.current, hbooks.isSome_served_iff,
    fun m => hbooks.served_eq, hbooks.lastSuccess, hbooks.lastError, fun es t => kept_of_step,
    fun front callback rest => hbooks.heard_eq, hbooks.calls⟩

/-- A reload succeeds, the directory goes, and the next reload fails; the subscriber panics at both
ends. -/
theorem books_of_directoryGone : ∃ (directory : CertDirectory) (r : Rotator (Bucket Float))
    (h : RotatorHistory) (s : LiveRotator (Bucket Float)),
    fromDirectory RotatorWorld.threeFiles directory RotatorWorld.prompt RotatorWorld.trustful
        ⟨0, fun _ => 0⟩ (Bucket.new 0 1 0) = .ok r ∧
      Runs ⟨RotatorWorld.threeFiles, 0, r⟩ h s ∧ h.completions.length = 2 ∧
      s.rotator.status.reloads = 1 ∧ s.rotator.status.failures = 1 ∧ s.rotator.served.isSome ∧
      s.rotator.status.lastError = h.completions.getLast?.bind Completion.message? ∧
      s.rotator.status.lastError.isSome ∧
      h.heard 0 = h.completions.map (fun c => c.outcome) ∧
      h.completions.map Completion.calls = [[.panicked .value], [.panicked .value]] := by
  obtain ⟨directory, hdirectory⟩ : ∃ directory, CertDirectory.new RotatorWorld.threeFiles
      RotatorWorld.prompt = .ok directory := ⟨_, rfl⟩
  obtain ⟨r, hnew⟩ : ∃ r : Rotator (Bucket Float), fromDirectory RotatorWorld.threeFiles directory
      RotatorWorld.prompt RotatorWorld.trustful ⟨0, fun _ => 0⟩ (Bucket.new 0 1 0) = .ok r := by
    cases hdirectory
    exact ⟨_, rfl⟩
  obtain ⟨s, h, hrun, hlength, hreloads, hfailures, herror, hcalls⟩ :
      ∃ (s : LiveRotator (Bucket Float)) (h : RotatorHistory),
      Runs ⟨RotatorWorld.threeFiles, 0, r⟩ (.subscribed (fun _ => .panicked .value) :: h) s ∧
        h.completions.length = 2 ∧ s.rotator.status.reloads = 1 ∧
        s.rotator.status.failures = 1 ∧ s.rotator.status.lastError.isSome ∧
        h.completions.map Completion.calls = [[.panicked .value], [.panicked .value]] := by
    cases hdirectory
    cases hnew
    exact ⟨_, _, .step (.step (.step (.step (.step (.step .rest (.subscribe _)) .call)
      (.attempt rfl (Nat.le_refl _))) (.edit ⟨[], []⟩)) .call) (.attempt rfl (Nat.le_refl _)),
      rfl, rfl, rfl, rfl, rfl⟩
  obtain ⟨-, -, -, hserved, -, -, hlast, -, hheard, -⟩ := books_of_runs hnew hrun
  refine ⟨directory, r, _, s, hnew, hrun, hlength, hreloads, hfailures, ?_, hlast, herror, ?_,
    hcalls⟩
  · rw [hserved, hreloads]
    exact Nat.one_pos
  · exact hheard [] _ h rfl

end LiveRotator

end CertRotation
