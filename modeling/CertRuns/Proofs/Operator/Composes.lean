import CertRuns.Proofs.Job.Names
import CertRuns.Proofs.Site.Keys

/-!
# What the operator writes into statuses

* `Work.Composes` : what the change of a task does to a status; `composes` : this holds of every task;
* `Work.Writes` : what a write of a task that is accepted makes of a status; `Composes.writes` : it
  makes one of these.
-/

namespace CertRuns

open Rehearsal (Work)

/-- What the change that a task makes does to a status. A pod that is recorded has a name. -/
def Rehearsal.Work.Composes : Work → Prop
  | .reconcile _ _ ⟨_, .announcing _ _ u⟩ => u.change = fun s => { s with phase := .deploying }
  | .reconcile _ _ ⟨_, .creating _ _ podName _⟩ => podName ≠ ""
  | .reconcile _ _ ⟨_, .excusing _ _ u⟩ => u.change = fun s => { s with phase := .deployError }
  | .reconcile _ _ ⟨_, .recording _ podName _ u⟩ =>
    podName ≠ "" ∧ u.change = fun s => { s with phase := .running, podName := some podName }
  | .monitor _ ⟨_, .recording u⟩ =>
    ∃ phase : Phase, phase.isTerminal = true ∧ u.change = fun s => { s with phase }
  | .harvest ⟨_, _, _, .storing report u⟩ => u.change = fun s => { s with report := some report }
  | _ => True

theorem finalPhase?_terminal {result : Except MonitorError Int32} {phase : Phase}
    (h : finalPhase? result = some phase) : phase.isTerminal = true := by
  unfold finalPhase? at h
  split at h
  · split at h <;> cases h <;> rfl
  · cases h
  · cases h
    rfl

theorem composes_harvest {now : Instant} {w w' : Harvest} {event : w.wait.Event}
    (hw : w.resume now event = .going w') (h : (Work.harvest w).Composes) :
    (Work.harvest w').Composes := by
  cases Harvest.resumes hw with
  | fetched => exact rfl
  | storing hu => exact (StatusUpdate.change_going hu).trans h
  | _ => trivial

namespace Operator

theorem composes {c : Operator} {history : List (Operator × Move)}
    (h : Execution Step {} history c) {id : Nat} {work : Work} {answer : Option work.wait.Event}
    (hw : c.progress? id = some (.waiting work answer)) : work.Composes := by
  refine waiting_induction ?_ ?_ ?_ h hw
  · intro c work hm
    cases hm <;> trivial
  · intro cs now work event work' hg hp
    cases hg with
    | update | completion | watcher => trivial
    | reconcile hd hr =>
      cases hr with
      | announce | redeploy | unbuilt | rejected => exact rfl
      | deploy => exact Job.podName_ne_empty _
      | commit => exact ⟨hp, rfl⟩
      | announcing hu | excusing hu => exact (StatusUpdate.change_going hu).trans hp
      | recording hu => exact ⟨hp.1, (StatusUpdate.change_going hu).trans hp.2⟩
      | _ => trivial
    | monitor hd hr =>
      cases hr with
      | waiting => trivial
      | finished _ hphase => exact ⟨_, finalPhase?_terminal hphase, rfl⟩
      | recording hu =>
        obtain ⟨phase, hterminal, hchange⟩ := hp
        exact ⟨phase, hterminal, (StatusUpdate.change_going hu).trans hchange⟩
    | harvest hw => exact composes_harvest hw hp
  · intro cs now work event new hs _
    cases hs with
    | event => trivial
    | monitor hd hr => cases hr <;> trivial

end Operator

/-! ## Writes -/

/-- What a write that a task makes by a change `u` makes of a status. -/
inductive Rehearsal.Work.Writes (u : StatusUpdate) (s s' : RunStatus) : Work → Prop
  /-- A change from outside. -/
  | update : Writes u s s' (.update u)
  | announcing {owner : Nat} {told : Option Nat} {key : ObjectKey} {run : Run} {claim : RunClaim}
      (hs : s' = { s with phase := .deploying }) :
      Writes u s s' (.reconcile owner told ⟨key, .announcing run claim u⟩)
  | excusing {owner : Nat} {told : Option Nat} {key : ObjectKey} {claim : RunClaim} {reason : String}
      (hs : s' = { s with phase := .deployError }) :
      Writes u s s' (.reconcile owner told ⟨key, .excusing claim reason u⟩)
  | recording {owner : Nat} {told : Option Nat} {key : ObjectKey} {run : Run} {podName : String}
      {token : Token} (hne : podName ≠ "")
      (hs : s' = { s with phase := .running, podName := some podName }) :
      Writes u s s' (.reconcile owner told ⟨key, .recording run podName token u⟩)
  | monitor {owner : Nat} {key : ObjectKey} {phase : Phase} (hphase : phase.isTerminal = true)
      (hs : s' = { s with phase }) : Writes u s s' (.monitor owner ⟨key, .recording u⟩)
  | harvest {settings : HarvestSettings} {retry : RetryPolicy} {token : Token} {report : Report}
      (hs : s' = { s with report := some report }) :
      Writes u s s' (.harvest ⟨settings, retry, token, .storing report u⟩)

theorem Rehearsal.Work.Composes.writes {work : Work} {event : work.wait.Event} {u : StatusUpdate}
    {stored : Run} (h : work.Composes) (hw : work.written? (some event) = some (u, stored))
    (s : RunStatus) : work.Writes u s (u.change s) := by
  obtain ⟨given, hv, _⟩ := written?_eq_some hw
  cases work with
  | update =>
    cases hv
    exact .update
  | reconcile owner told r =>
    obtain ⟨key, stage⟩ := r
    cases stage with
    | announcing run claim u =>
      cases hv
      exact .announcing (congrFun h s)
    | excusing claim reason u =>
      cases hv
      exact .excusing (congrFun h s)
    | recording run podName token u =>
      cases hv
      exact .recording h.1 (congrFun h.2 s)
    | _ => cases hv
  | monitor owner r =>
    obtain ⟨key, stage⟩ := r
    cases stage <;> cases hv
    obtain ⟨phase, hphase, hchange⟩ := h
    exact .monitor hphase (congrFun hchange s)
  | harvest r =>
    obtain ⟨settings, retry, token, stage⟩ := r
    cases stage with
    | storing report u =>
      cases hv
      exact .harvest (congrFun h s)
    | _ => cases hv
  | _ => cases hv

end CertRuns
