import CertRuns.Proofs.Job.Names
import CertRuns.Proofs.Operator.Fates
import CertRuns.Proofs.Site.Keys
import CertRuns.Proofs.Site.Pods

/-!
# Pods that are created for runs

* `Work.Built`, `built` : a pod is built in the namespace of its run, under the name that goes with
  it;
* `creating_key`, `Step.creation_eq` : which pod a reconciliation creates, and how.
-/

namespace CertRuns

open Rehearsal (Work)

/-- The pod that a reconciliation creates stands in the namespace of its run, under the name that it
will be committed with. -/
def Rehearsal.Work.Built : Work → Prop
  | .reconcile _ _ ⟨_, .creating run _ podName pod⟩ => pod.key = ⟨run.key.ns, podName⟩
  | _ => True

theorem StatusUpdate.creation?_eq_none (u : StatusUpdate) (event : u.wait.Event) :
    u.wait.creation? event = none := by
  obtain ⟨key, change, policy, attempt, stage⟩ := u
  cases stage <;> rfl

namespace Operator

theorem built {c : Operator} {history : List (Operator × Move)} (h : Execution Step {} history c)
    {id : Nat} {work : Work} {answer : Option work.wait.Event}
    (hw : c.progress? id = some (.waiting work answer)) : work.Built := by
  refine waiting_induction ?_ ?_ ?_ h hw
  · intro c work hm
    cases hm <;> trivial
  · intro cs now work event work' hg _
    cases hg with
    | reconcile hd hr =>
      cases hr with
      | deploy _ hpod => exact Job.forRun_key hpod
      | _ => trivial
    | _ => trivial
  · intro cs now work event new hs _
    cases hs <;> trivial

end Operator

namespace Site

variable {t t' : Site} {m : Move} {history : List (Site × Move)} {owner : Nat} {key pod : ObjectKey}

theorem creating_key (h : Execution Step {} history t) {id : Nat} {told : Option Nat} {run : Run}
    {claim : RunClaim} {name : String} {new : Pod}
    {answer : Option (Reconcile.mk key (.creating run claim name new)).wait.Event}
    (hw : t.operator.progress? id = some (.waiting
      (.reconcile owner told ⟨key, .creating run claim name new⟩) answer)) :
    new.key = ⟨key.ns, name⟩ := by
  have hbuilt : new.key = ⟨run.key.ns, name⟩ := Operator.built (operator_execution h) hw
  have hrun : run.key = key := keyed h hw
  rw [hbuilt, hrun]

theorem Step.creation_eq (h : Execution Step {} history t) (hs : t.Step m t')
    (hc : m.creator? pod = some (.reconciler owner key)) :
    pod.ns = key.ns ∧ ∃ (id : Nat) (told : Option Nat) (run : Run) (claim : RunClaim) (p stored : Pod),
      m = .receive id (.reconcile owner told ⟨key, .creating run claim pod.name p⟩) (.ok stored) := by
  cases m with
  | receive id work event =>
    rw [Move.creator?] at hc
    split at hc
    · rename_i hcreation
      cases work with
      | reconcile o told r =>
        obtain ⟨k, stage⟩ := r
        cases hc
        have hw := hs.1.1.1
        cases stage with
        | creating run claim podName p =>
          cases event with
          | error e => cases hcreation
          | ok stored =>
            have hpod : some p.key = some pod := hcreation
            rw [creating_key h hw] at hpod
            cases hpod
            exact ⟨rfl, id, told, run, claim, p, stored, rfl⟩
        | announcing | excusing | recording =>
          rw [show Wait.creation? _ event = none from StatusUpdate.creation?_eq_none _ event]
            at hcreation
          cases hcreation
        | _ => cases hcreation
      | _ => cases hc
    · cases hc
  | _ => cases hc

end Site

end CertRuns
