import CertRuns.Proofs.Control.StatusUpdate
import CertRuns.Proofs.Operator.Roles
import CertRuns.Proofs.Operator.Updates
import CertRuns.Proofs.Site.Basic

/-!
# Tasks stay with their runs

A reconciliation is started for a key and reads the run under it. All that it does later, and all
that its monitor does, concerns this key.

* `Work.Keyed` : the run that a task has read and the changes that it makes are for its own key;
* `keyed` : this holds of every task;
* `parent_role` : a monitor follows the run that its parent reconciles.
-/

namespace CertRuns

open Rehearsal (Work)

/-- The run that a task has read and the change that it makes are for the task's own key. -/
def Rehearsal.Work.Keyed : (work : Work) → Option work.wait.Event → Prop
  | .reconcile _ _ ⟨key, .fetching⟩, some (.ok run) => run.key = key
  | .reconcile _ _ ⟨key, .inspecting run _ _⟩, _ => run.key = key
  | .reconcile _ _ ⟨key, .announcing run _ u⟩, _ => run.key = key ∧ u.key = key
  | .reconcile _ _ ⟨key, .creating run _ _ _⟩, _ => run.key = key
  | .reconcile _ _ ⟨key, .excusing _ _ u⟩, _ => u.key = key
  | .reconcile _ _ ⟨key, .recording run _ _ u⟩, _ => run.key = key ∧ u.key = key
  | .monitor _ ⟨key, .recording u⟩, _ => u.key = key
  | _, _ => True

/-- A change that goes on is the same change, further on. -/
theorem StatusUpdate.going_eq {u v : StatusUpdate} {now : Instant} {event : u.wait.Event}
    (h : u.resume now event = .going v) : v = { u with attempt := v.attempt, stage := v.stage } := by
  cases StatusUpdate.resumes h <;> rfl

theorem StatusUpdate.key_going {u v : StatusUpdate} {now : Instant} {event : u.wait.Event}
    (h : u.resume now event = .going v) : v.key = u.key := by
  rw [going_eq h]

theorem StatusUpdate.change_going {u v : StatusUpdate} {now : Instant} {event : u.wait.Event}
    (h : u.resume now event = .going v) : v.change = u.change := by
  rw [going_eq h]

namespace Rehearsal.Work.Keyed

variable {cs : List Controller} {now : Instant} {work work' : Work} {event : work.wait.Event}

theorem goes (h : work.Keyed (some event)) (hg : Operator.Goes cs now work event work') :
    work'.Keyed none := by
  cases hg with
  | update | completion | watcher | harvest => trivial
  | reconcile hd hr =>
    cases hr with
    | cleaning | adoptLate | commitLate => trivial
    | inspect => exact h
    | announce | redeploy => exact ⟨h, rfl⟩
    | announcing hu => exact ⟨h.1, (StatusUpdate.key_going hu).trans h.2⟩
    | deploy => exact h.1
    | unbuilt | rejected => exact rfl
    | commit => exact ⟨h, rfl⟩
    | excusing hu => exact (StatusUpdate.key_going hu).trans h
    | recording hu => exact ⟨h.1, (StatusUpdate.key_going hu).trans h.2⟩
  | monitor hd hr =>
    cases hr with
    | waiting => trivial
    | finished => exact rfl
    | recording hu => exact (StatusUpdate.key_going hu).trans h

/-- The tasks that a task starts. A monitor is for the key of the reconciliation. -/
theorem spawns {new : Work} (h : work.Keyed (some event))
    (hs : Operator.Spawns cs now work event new) :
    new.Keyed none ∧ (work.role = .other ∨
      ∃ owner key, work.role = .reconciler owner key ∧ new.role = .monitor owner key) := by
  cases hs with
  | event key => exact ⟨trivial, .inl rfl⟩
  | monitor hd hr =>
    cases hr with
    | adopt => exact ⟨trivial, .inr ⟨_, _, rfl, congrArg (Role.monitor _) h⟩⟩
    | recorded hu => exact ⟨trivial, .inr ⟨_, _, rfl, congrArg (Role.monitor _) h.1⟩⟩

/-- The change that a reconciliation or a monitor makes is for its own key. -/
theorem update {answer : Option work.wait.Event} (h : work.Keyed answer) {u : Updating}
    (hu : work.updating? answer = some u) {owner : Nat} {key : ObjectKey}
    (hr : work.role = .reconciler owner key ∨ work.role = .monitor owner key) :
    u.update.key = key := by
  cases work with
  | reconcile o told r =>
    obtain ⟨k, stage⟩ := r
    obtain rfl : k = key := by rcases hr with hr | hr <;> cases hr; rfl
    cases stage <;> cases hu
    · exact h.2
    · exact h
    · exact h.2
  | monitor o r =>
    obtain ⟨k, stage⟩ := r
    obtain rfl : k = key := by rcases hr with hr | hr <;> cases hr; rfl
    cases stage <;> cases hu
    exact h
  | _ => rcases hr with hr | hr <;> cases hr

end Rehearsal.Work.Keyed

namespace Site

variable {t t' : Site} {history : List (Site × Move)}

theorem keyed (h : Execution Step {} history t) {id : Nat} {work : Work}
    {answer : Option work.wait.Event} (hw : t.operator.progress? id = some (.waiting work answer)) :
    work.Keyed answer := by
  refine waiting_induction (P := fun _ work answer => work.Keyed answer) ?_ ?_ ?_ ?_ ?_ h hw
  · exact fun _ _ _ _ _ hp => hp
  · intro s c work hm
    cases hm <;> trivial
  · intro s s' work event hs ha hp
    cases work with
    | reconcile o told r =>
      obtain ⟨key, stage⟩ := r
      cases stage with
      | fetching =>
        cases event with
        | error e => trivial
        | ok run => exact hs.keyed (Store.Answers.getRun_ok ha).1
      | _ => exact hp
    | monitor o r =>
      obtain ⟨key, stage⟩ := r
      cases stage with
      | waiting w => trivial
      | recording u => exact hp
    | _ => trivial
  · exact fun _ _ _ _ _ _ hg hp => hp.goes hg
  · exact fun _ _ _ _ _ _ hs hp => (hp.spawns hs).1

/-- A task that was started by a reconciliation is a monitor, and follows the run that this
reconciles. -/
theorem parent_role (h : Execution Step {} history t) {id parent : Nat}
    (hp : t.operator.parent? id = some parent) :
    t.operator.role? parent = some .other ∨
      ∃ owner key, t.operator.role? parent = some (.reconciler owner key) ∧
        t.operator.role? id = some (.monitor owner key) := by
  induction h with
  | start => cases hp
  | @next history s s' m before last ih =>
    obtain ⟨x, hx, hparent⟩ := Option.bind_eq_some_iff.mp hp
    cases last.1.begins hx with
    | before hy ho hq =>
      have hp' : s.operator.parent? id = some parent := by
        rw [Operator.parent?, hy, Option.bind_some, ← hq, hparent]
      rcases ih hp' with h | ⟨owner, key, h, hid⟩
      · exact .inl (last.1.role? h)
      · exact .inr ⟨owner, key, last.1.role? h, last.1.role? hid⟩
    | outside _ hq =>
      rw [hq] at hparent
      cases hparent
    | @spawned _ work event hm hw hn hq =>
      rw [hq] at hparent
      cases hparent
      have hrole := Operator.role?_waiting (operator_execution before) hw
      rcases ((keyed before hw).spawns hn).2 with h | ⟨owner, key, h, hnew⟩
      · rw [h] at hrole
        exact .inl (last.1.role? hrole)
      · rw [h] at hrole
        refine .inr ⟨owner, key, last.1.role? hrole, ?_⟩
        rw [Operator.role?, hx, Option.map_some, hnew]

end Site

end CertRuns
