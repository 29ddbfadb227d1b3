import CertRuns.Proofs.Operator.Composes
import CertRuns.Proofs.Site.StatusWrites

/-!
# Where the status of a run comes from

The status of a stored run is the one that it was applied with, changed by the writes that were
accepted since.

* `StatusOrigin` : where the status of a run that is stored after a move comes from;
  `Step.status` : it comes from one of these.
-/

namespace CertRuns

open Rehearsal (Work)

/-- The run that a call has stored, if it is answered so. -/
def Wait.stored? : (wait : Wait) → wait.Event → Option Run
  | .call (.updateRunStatus _), .ok stored => some stored
  | _, _ => none

/-! ## Calls -/

namespace Store

variable {s s' : Store} {key : ObjectKey} {r' : Run}

theorem Answers.status {wait : Wait} {event : wait.Event} (h : s.Answers s' wait event)
    (hr : s'.runs.get? key = some r') :
    (∃ r, s.runs.get? key = some r ∧ r.status = r'.status) ∨ wait.stored? event = some r' := by
  have kept (hs : s'.runs = s.runs) : (∃ r, s.runs.get? key = some r ∧ r.status = r'.status) ∨
      wait.stored? event = some r' := .inl ⟨r', hs ▸ hr, rfl⟩
  cases wait with
  | sleep | pause | look | draw | never => exact kept (congrArg Store.runs h)
  | call r =>
    rcases h with ⟨stamp, h⟩ | ⟨_, rfl⟩
    · cases r with
      | getRun | listRuns | getPod | listPods => exact kept (congrArg (·.1.runs) h).symm
      | createPod pod =>
        refine kept (.trans ?_ (runs_createPod s stamp pod))
        exact (congrArg (·.1.runs) h).symm
      | deletePod pod =>
        refine kept (.trans ?_ (runs_deletePod s pod))
        exact (congrArg (·.1.runs) h).symm
      | updateRunStatus w =>
        cases event with
        | error e => exact .inl (updateRunStatus_error h hr)
        | ok stored =>
          obtain ⟨before, _, _, _, _, hs⟩ := updateRunStatus_ok h
          rw [hs, Table.get?_insert] at hr
          split at hr
          · exact .inr hr
          · exact .inl ⟨r', hr, rfl⟩
    · exact kept rfl

end Store

/-! ## Tasks -/

theorem Updating.written?_of_stored {u : StatusUpdate} {event : u.wait.Event} {r : Run}
    (h : u.wait.stored? event = some r) : Updating.written? ⟨u, some event⟩ = some r := by
  obtain ⟨key, change, policy, attempt, stage⟩ := u
  cases stage with
  | reading | drawing | resting | panicked => cases h
  | writing w =>
    cases event with
    | error e => cases h
    | ok stored => exact h

/-- A run is stored by a change of its status, or by a call on its own. -/
theorem Rehearsal.Work.written?_of_stored {work : Work} {event : work.wait.Event} {r : Run}
    (h : work.wait.stored? event = some r) :
    (∃ u, work.written? (some event) = some (u, r)) ∨ ∃ w, work = .call (.updateRunStatus w) := by
  have hu {u : StatusUpdate} {answer : u.wait.Event} (hwait : u.wait.stored? answer = some r)
      (hupdating : work.updating? (some event) = some ⟨u, some answer⟩) :
      (∃ u, work.written? (some event) = some (u, r)) ∨
        ∃ w, work = .call (.updateRunStatus w) := by
    refine .inl ⟨u, ?_⟩
    rw [written?, hupdating, Option.bind_some, Updating.written?_of_stored hwait, Option.map_some]
  cases work with
  | call request =>
    cases request with
    | updateRunStatus w => exact .inr ⟨w, rfl⟩
    | _ => cases h
  | update u => exact hu h rfl
  | completion w =>
    obtain ⟨pod, limit, deadline, token, ticker, stage⟩ := w
    cases stage <;> cases h
  | reconcile owner told r =>
    obtain ⟨key, stage⟩ := r
    cases stage with
    | announcing | excusing | recording => exact hu h rfl
    | _ => cases h
  | monitor owner m =>
    obtain ⟨key, stage⟩ := m
    cases stage with
    | waiting w =>
      obtain ⟨pod, limit, deadline, token, ticker, stage⟩ := w
      cases stage <;> cases h
    | recording u => exact hu h rfl
  | watcher owner w =>
    obtain ⟨number, ns, token, ticker, known, initial, seeded, stage⟩ := w
    cases stage <;> cases h
  | seeding => cases h
  | harvest w =>
    obtain ⟨settings, retry, token, stage⟩ := w
    cases stage with
    | storing report u => exact hu h rfl
    | _ => cases h

namespace Site

variable {t t' : Site} {m : Move} {history : List (Site × Move)} {key : ObjectKey} {r' : Run}

/-! ## Moves -/

/-- Where the status of a run that is stored after a move comes from. -/
inductive StatusOrigin (t : Site) (key : ObjectKey) (r' : Run) : Move → Prop
  /-- The run has had it before. -/
  | kept {m : Move} {r : Run} (hr : t.store.runs.get? key = some r) (hs : r'.status = r.status) :
      StatusOrigin t key r' m
  /-- The run has just been applied with it. -/
  | applied {stamp : Stamp} {run : Run} (hk : run.key = key) (hs : r'.status = run.status) :
      StatusOrigin t key r' (.outside (.applyRun stamp run))
  /-- The change of a task was just written. -/
  | written {id : Nat} {work : Work} {event : work.wait.Event} {u : StatusUpdate} {r : Run}
      (hw : work.written? (some event) = some (u, r')) (hk : u.key = key)
      (hr : t.store.runs.get? key = some r) (hs : r'.status = u.change r.status) :
      StatusOrigin t key r' (.receive id work event)
  /-- A call on its own has just stored it. -/
  | called {id : Nat} {w : Run} {reply : Except ClusterError Run} (hr : reply = .ok r') :
      StatusOrigin t key r' (.receive id (.call (.updateRunStatus w)) reply)

theorem Step.status (h : Execution Step {} history t) (hs : t.Step m t')
    (hr : t'.store.runs.get? key = some r') : StatusOrigin t key r' m := by
  have same (hstore : t'.store.runs = t.store.runs) : StatusOrigin t key r' m :=
    .kept (hstore ▸ hr) rfl
  have hsound : t'.store.Sound := sound (.next h hs)
  have hstore := hs.2
  cases m with
  | receive id work event =>
    rcases Store.Answers.status hstore hr with ⟨r, hr, hstatus⟩ | hstored
    · exact .kept hr hstatus.symm
    · rcases Work.written?_of_stored hstored with ⟨u, hu⟩ | ⟨w, rfl⟩
      · have hw : (Move.receive id work event).write? id = some (u, r') := by
          rw [Move.write?, if_pos rfl, hu]
        obtain ⟨before, hb, hnew, hruns⟩ := write_stored h hs hw
        have hkey : u.key = key := by
          rw [← hsound.keyed hr]
          refine (hsound.keyed ?_).symm
          rw [hruns, Table.get?_insert_self]
        exact .written hu hkey (hkey ▸ hb) (by rw [hnew]; rfl)
      · cases event with
        | error e => cases hstored
        | ok stored =>
          cases hstored
          exact .called rfl
  | outside change =>
    have hstore : t'.store = change.apply t.store := hstore
    cases change with
    | applyRun stamp run =>
      rw [hstore, Outside.get?_applyRun] at hr
      split at hr
      · rename_i hk
        cases hr
        exact .applied hk.symm rfl
      · exact .kept hr rfl
    | removeRun k =>
      rw [hstore, Outside.get?_removeRun] at hr
      split at hr
      · cases hr
      · exact .kept hr rfl
    | setPodStatus k status =>
      refine same ?_
      rw [hstore]
      exact t.store.runs_setPodStatus k status
    | forceConflicts | rejectNextPod => exact same (by rw [hstore]; rfl)
  | _ => exact same (congrArg Store.runs hstore)

end Site

end CertRuns
