import CertRuns.Proofs.Control.Harvest
import CertRuns.Proofs.Operator.Steps

/-!
# Changes of statuses under way

Tasks of five kinds change the status of a run: changes on their own, reconciliations in three of
their stages, monitors and harvests. They all do it by a `StatusUpdate`.

* `Work.updating?` : the change that a task is making, with the answer that it has been given;
* `Updating.written?`, `Updating.result?` : the run that its write stored, and how it ends;
* `writesSince` : the writes of a task that were accepted since its last change came to an end;
* `writesSince_eq` : these are at most one, the one whose answer the task has not yet seen.
-/

namespace CertRuns

open Rehearsal (Work)

/-- A change of a status under way, with the answer to what it waits for. -/
structure Updating where
  update : StatusUpdate
  answer : Option update.wait.Event

def Rehearsal.Work.updating? : (work : Work) → Option work.wait.Event → Option Updating
  | .update u, answer => some ⟨u, answer⟩
  | .reconcile _ _ ⟨_, .announcing _ _ u⟩, answer => some ⟨u, answer⟩
  | .reconcile _ _ ⟨_, .excusing _ _ u⟩, answer => some ⟨u, answer⟩
  | .reconcile _ _ ⟨_, .recording _ _ _ u⟩, answer => some ⟨u, answer⟩
  | .monitor _ ⟨_, .recording u⟩, answer => some ⟨u, answer⟩
  | .harvest ⟨_, _, _, .storing _ u⟩, answer => some ⟨u, answer⟩
  | _, _ => none

namespace Updating

/-- The run that the change has stored, if the answer is that its write was accepted. -/
def written? : Updating → Option Run
  | ⟨⟨_, _, _, _, .writing _⟩, some (.ok stored)⟩ => some stored
  | _ => none

/-- What the change returns when it is taken on with its answer, if that is its end. -/
def result? (now : Instant) : Updating → Option (Except ClusterError Run)
  | ⟨u, some event⟩ =>
    match u.resume now event with
    | .ended result => some result
    | .going _ => none
  | ⟨_, none⟩ => none

/-- A change returns a run just when its write of that run was accepted. -/
theorem result?_ok {u : Updating} {now : Instant} {stored : Run} :
    u.result? now = some (.ok stored) ↔ u.written? = some stored := by
  obtain ⟨⟨key, change, policy, attempt, stage⟩, answer⟩ := u
  cases answer with
  | none =>
    refine ⟨nofun, fun h => ?_⟩
    cases stage <;> cases h
  | some event =>
    cases stage with
    | reading =>
      refine ⟨fun h => ?_, nofun⟩
      cases event <;> cases h
    | drawing | resting => exact ⟨nofun, nofun⟩
    | panicked => exact event.elim
    | writing w =>
      cases event with
      | ok run =>
        refine ⟨fun h => ?_, fun h => ?_⟩
        · cases h
          rfl
        · cases h
          rfl
      | error e =>
        refine ⟨fun h => ?_, nofun⟩
        simp only [result?, StatusUpdate.resume, StatusUpdate.afterWrite] at h
        split at h
        · rename_i hr
          split at hr
          · cases hr
          · cases hr
            cases h
        · cases h

theorem written?_of_going {u u' : StatusUpdate} {now : Instant} {event : u.wait.Event}
    (hu : u.resume now event = .going u') : written? ⟨u, some event⟩ = none := by
  cases h : written? ⟨u, some event⟩ with
  | none => rfl
  | some stored =>
    have hr : result? now ⟨u, some event⟩ = some (.ok stored) := result?_ok.mpr h
    rw [result?, hu] at hr
    cases hr

theorem written?_of_ended {u : StatusUpdate} {now : Instant} {event : u.wait.Event}
    {stored : Run} (hu : u.resume now event = .ended (.ok stored)) :
    written? ⟨u, some event⟩ = some stored := by
  have hr : result? now ⟨u, some event⟩ = some (.ok stored) := by rw [result?, hu]
  exact result?_ok.mp hr

theorem written?_of_failed {u : StatusUpdate} {now : Instant} {event : u.wait.Event}
    {e : ClusterError} (hu : u.resume now event = .ended (.error e)) :
    written? ⟨u, some event⟩ = none := by
  cases h : written? ⟨u, some event⟩ with
  | none => rfl
  | some stored =>
    have hr : result? now ⟨u, some event⟩ = some (.ok stored) := result?_ok.mpr h
    rw [result?, hu] at hr
    cases hr

end Updating

/-- The answer to a wait as one to another that is the same. -/
def Wait.cast {w w' : Wait} (h : w = w') (answer : Option w.Event) : Option w'.Event := h ▸ answer

@[simp] theorem Wait.cast_none {w w' : Wait} (h : w = w') : Wait.cast h none = none := by
  cases h
  rfl

/-- A task that makes a change waits for what the change waits for, and hands the answer on. -/
theorem Rehearsal.Work.updating?_eq_some {work : Work} {answer : Option work.wait.Event}
    {u : Updating} (h : work.updating? answer = some u) :
    ∃ hw : work.wait = u.update.wait, u.answer = Wait.cast hw answer ∧
      ∀ other, work.updating? other = some ⟨u.update, Wait.cast hw other⟩ := by
  cases work with
  | update v =>
    cases h
    exact ⟨rfl, rfl, fun _ => rfl⟩
  | reconcile o told r =>
    obtain ⟨key, stage⟩ := r
    cases stage <;> cases h <;> exact ⟨rfl, rfl, fun _ => rfl⟩
  | monitor o r =>
    obtain ⟨key, stage⟩ := r
    cases stage <;> cases h
    exact ⟨rfl, rfl, fun _ => rfl⟩
  | harvest r =>
    obtain ⟨settings, retry, token, stage⟩ := r
    cases stage <;> cases h
    exact ⟨rfl, rfl, fun _ => rfl⟩
  | call | completion | watcher | seeding => cases h

theorem updating_harvest {now : Instant} {w w' : Harvest} {event : w.wait.Event} {u' : Updating}
    (hw : w.resume now event = .going w') (h : (Work.harvest w').updating? none = some u') :
    u'.update.stage = .reading ∨ ∃ u e, (Work.harvest w).updating? (some event) =
      some ⟨u, some e⟩ ∧ u.resume now e = .going u'.update := by
  cases Harvest.resumes hw with
  | fetched =>
    cases h
    exact .inl rfl
  | storing hu =>
    cases h
    exact .inr ⟨_, _, rfl, hu⟩
  | _ => cases h

/-- A task that goes on making a change: the change has just started, or it goes on itself. -/
theorem Operator.Goes.updating {cs : List Controller} {now : Instant} {work work' : Work}
    {event : work.wait.Event} {u' : Updating} (hg : Operator.Goes cs now work event work')
    (h : work'.updating? none = some u') :
    u'.update.stage = .reading ∨ ∃ u e, work.updating? (some event) = some ⟨u, some e⟩ ∧
      u.resume now e = .going u'.update := by
  cases hg with
  | update hu =>
    cases h
    exact .inr ⟨_, _, rfl, hu⟩
  | completion => cases h
  | watcher => cases h
  | reconcile hd hr =>
    cases hr with
    | cleaning | inspect | adoptLate | deploy | commitLate => cases h
    | announce | redeploy | unbuilt | commit | rejected =>
      cases h
      exact .inl rfl
    | announcing hu | excusing hu | recording hu =>
      cases h
      exact .inr ⟨_, _, rfl, hu⟩
  | monitor hd hr =>
    cases hr with
    | waiting => cases h
    | finished =>
      cases h
      exact .inl rfl
    | recording hu =>
      cases h
      exact .inr ⟨_, _, rfl, hu⟩
  | harvest hw => exact updating_harvest hw h

theorem Operator.Spawns.updating {cs : List Controller} {now : Instant} {work new : Work}
    {event : work.wait.Event} (h : Operator.Spawns cs now work event new) :
    new.updating? none = none := by
  cases h with
  | event => rfl
  | monitor hd hr => cases hr <;> rfl

theorem Operator.MayStart.updating {c : Operator} {work : Work} {u : Updating}
    (h : c.MayStart work) (hu : work.updating? none = some u) : u.update.stage = .reading := by
  cases h <;> cases hu
  rfl

/-! ## The moves of a change -/

/-- The write of a task whose answer is that it was accepted: the change that makes it, and the run
that was stored. -/
def Rehearsal.Work.written? (work : Work) (answer : Option work.wait.Event) :
    Option (StatusUpdate × Run) :=
  (work.updating? answer).bind fun u => u.written?.map (u.update, ·)

/-- The change of a task that comes to its end with an answer, and what it returns. -/
def Rehearsal.Work.returned? (now : Instant) (work : Work) (event : work.wait.Event) :
    Option (StatusUpdate × Except ClusterError Run) :=
  (work.updating? (some event)).bind fun u => (u.result? now).map (u.update, ·)

/-- The write of a task that is accepted in a move. -/
def Move.write? (id : Nat) : Move → Option (StatusUpdate × Run)
  | .receive i work event => if i = id then work.written? (some event) else none
  | _ => none

/-- The change of a task that comes to its end in a move. -/
def Move.return? (now : Instant) (id : Nat) : Move → Option (StatusUpdate × Except ClusterError Run)
  | .resume i work event => if i = id then work.returned? now event else none
  | _ => none

theorem Rehearsal.Work.written?_eq_some {work : Work} {answer : Option work.wait.Event}
    {u : StatusUpdate} {stored : Run} (h : work.written? answer = some (u, stored)) :
    ∃ given, work.updating? answer = some ⟨u, given⟩ ∧
      Updating.written? ⟨u, given⟩ = some stored := by
  obtain ⟨⟨v, given⟩, hv, hwritten⟩ := Option.bind_eq_some_iff.mp h
  obtain ⟨run, hrun, hpair⟩ := Option.map_eq_some_iff.mp hwritten
  cases hpair
  exact ⟨given, hv, hrun⟩

theorem Move.write?_eq_some {m : Move} {id : Nat} {u : StatusUpdate} {stored : Run}
    (h : m.write? id = some (u, stored)) :
    ∃ (work : Work) (event : work.wait.Event), m = .receive id work event ∧
      work.written? (some event) = some (u, stored) := by
  cases m with
  | receive i work event =>
    rw [Move.write?] at h
    split at h
    · rename_i hi
      subst hi
      exact ⟨work, event, rfl, h⟩
    · cases h
  | _ => cases h

/-- A task that has not been given an answer has no write accepted. -/
theorem Rehearsal.Work.written?_none (work : Work) : work.written? none = none := by
  unfold written?
  cases h : work.updating? none with
  | none => rfl
  | some u =>
    obtain ⟨hw, ha, _⟩ := updating?_eq_some h
    rw [Wait.cast_none] at ha
    have hnone : u.written? = none := by
      unfold Updating.written?
      split
      · cases ha
      · rfl
    rw [Option.bind_some, hnone, Option.map_none]

/-- A change returns a run just when its write of that run was accepted. -/
theorem Rehearsal.Work.returned?_ok {work : Work} {now : Instant} {event : work.wait.Event}
    {u : StatusUpdate} {stored : Run} :
    work.returned? now event = some (u, .ok stored) ↔
      work.written? (some event) = some (u, stored) := by
  unfold returned? written?
  cases work.updating? (some event) with
  | none => exact ⟨nofun, nofun⟩
  | some v =>
    simp only [Option.bind_some, Option.map_eq_some_iff, Prod.mk.injEq]
    constructor
    · rintro ⟨result, hr, rfl, rfl⟩
      exact ⟨stored, Updating.result?_ok.mp hr, rfl, rfl⟩
    · rintro ⟨run, hr, rfl, rfl⟩
      exact ⟨.ok run, Updating.result?_ok.mpr hr, rfl, rfl⟩

namespace Operator

variable {c c' : Operator} {m : Move} {history : List (Operator × Move)} {id : Nat}

/-- The writes of a task that were accepted since its last change came to an end, the last one
first. -/
def writesSince (id : Nat) : List (Operator × Move) → List (StatusUpdate × Run)
  | [] => []
  | (c, m) :: earlier =>
    if (m.return? c.clock id).isSome then [] else (m.write? id).toList ++ writesSince id earlier

/-- The writes that a change with a result should have had accepted: that of the run that it
returns, and none if it returns an error. -/
def writesOf (u : StatusUpdate) : Except ClusterError Run → List (StatusUpdate × Run)
  | .ok stored => [(u, stored)]
  | .error _ => []

/-- The accepted write whose answer a task has been given, but has not yet gone on with. -/
def pending (c : Operator) (id : Nat) : List (StatusUpdate × Run) :=
  match c.progress? id with
  | some (.waiting work answer) => (work.written? answer).toList
  | _ => []

theorem pending_waiting {work : Work} {answer : Option work.wait.Event}
    (h : c.progress? id = some (.waiting work answer)) :
    pending c id = (work.written? answer).toList := by
  rw [pending, h]

theorem pending_fresh {work : Work} (h : c.progress? id = some (.waiting work none)) :
    pending c id = [] := by
  rw [pending_waiting h, Work.written?_none]
  rfl

theorem write?_eq_none (hm : m.subject? ≠ some id) : m.write? id = none := by
  cases m with
  | receive i work event => exact if_neg fun h => hm (congrArg some h)
  | _ => rfl

theorem return?_eq_none (hm : m.subject? ≠ some id) (now : Instant) : m.return? now id = none := by
  cases m with
  | resume i work event => exact if_neg fun h => hm (congrArg some h)
  | _ => rfl

theorem writesSince_other (hm : m.subject? ≠ some id) :
    writesSince id ((c, m) :: history) = writesSince id history := by
  rw [writesSince, return?_eq_none hm, write?_eq_none hm]
  rfl

theorem writesSince_receive (work : Work) (event : work.wait.Event) :
    writesSince id ((c, .receive id work event) :: history) =
      (work.written? (some event)).toList ++ writesSince id history := by
  rw [writesSince, Move.write?, if_pos rfl]
  rfl

theorem writesSince_resume (work : Work) (event : work.wait.Event) :
    writesSince id ((c, .resume id work event) :: history) =
      if (work.returned? c.clock event).isSome then [] else writesSince id history := by
  rw [writesSince, Move.return?, if_pos rfl]
  rfl

/-- The writes of a task that were accepted since its last change came to an end are the one whose
answer it has not yet gone on with. -/
theorem writesSince_eq (h : Execution Step {} history c) (id : Nat) :
    writesSince id history = pending c id := by
  induction h with
  | start => rfl
  | @next history s s' m before last ih =>
    cases hp : s'.threads[id]? with
    | none =>
      obtain ⟨hs, hm⟩ := last.absent hp
      rw [writesSince_other hm, ih, pending, pending, progress?, progress?, hp, hs]
    | some t' =>
      cases last.comes hp with
      | kept hm ht => rw [writesSince_other hm, ih, pending, pending, progress?, progress?, hp, ht]
      | @received t work event ht hw _ h =>
        have hnow : s'.progress? id = some (.waiting work (some event)) :=
          progress?_eq_some.mpr ⟨t', hp, by rw [h]; rfl⟩
        rw [writesSince_receive, ih, pending_fresh (progress?_eq_some.mpr ⟨t, ht, hw⟩),
          pending_waiting hnow, List.append_nil]
      | @resumed t work event ht hw h =>
        have hnow : pending s' id = [] := by
          cases hn : (work.resume s.controllers s.clock event).next with
          | ended result => rw [pending, progress?, hp, h, hn]; rfl
          | going new =>
            exact pending_fresh (progress?_eq_some.mpr ⟨t', hp, by rw [h, hn]; rfl⟩)
        rw [writesSince_resume, ih, hnow, pending_waiting (progress?_eq_some.mpr ⟨t, ht, hw⟩)]
        cases hr : work.written? (some event) with
        | none => rw [Option.toList_none, ite_self]
        | some write =>
          rw [Work.returned?_ok.mpr hr]
          rfl
      | started hi hm h =>
        rw [writesSince_other (fun h => by cases h), ih, pending, progress?, hi,
          pending_fresh (progress?_eq_some.mpr ⟨t', hp, by rw [h]; rfl⟩)]
        rfl
      | @spawned j t work new event hi ht hw hn h =>
        have hj : (Move.resume j work event).subject? ≠ some id := by
          intro hj
          cases hj
          rw [hi] at ht
          cases ht
        rw [writesSince_other hj, ih, pending, progress?, hi,
          pending_fresh (progress?_eq_some.mpr ⟨t', hp, by rw [h]; rfl⟩)]
        rfl

end Operator

end CertRuns
