import CertRuns.Proofs.Operator.Trackers

/-!
# Claims of tasks

* `OwnClaims` : reconciliations hold claims on their own runs only (`ownClaims`).
-/

namespace CertRuns.Operator

open Rehearsal (Work)

variable {c c' : Operator} {m : Move} {owner : Nat} {key : ObjectKey}

/-! ## Claims are on the run that is reconciled -/

/-- The claim of a reconciliation is one on its own run. -/
def OwnClaim : Work → Prop
  | .reconcile _ _ ⟨key, stage⟩ => ∀ claim, stage.claim? = some claim → claim.key = key
  | _ => True

def OwnClaims (c : Operator) : Prop :=
  ∀ id work answer, c.progress? id = some (.waiting work answer) → OwnClaim work

theorem ownClaims {history : List (Operator × Move)} (h : Execution Step {} history c) :
    OwnClaims c := by
  intro id work answer hw
  refine waiting_induction ?_ ?_ ?_ h hw
  · intro c work hm
    cases hm with
    | reconcile owner key => exact fun claim h => by cases h
    | _ => trivial
  · intro cs now work event work' hg hp
    cases hg with
    | reconcile hd hr =>
      intro claim hc
      cases hr with
      | inspect | announce =>
        cases hc
        rfl
      | cleaning | adoptLate | commit | commitLate | recording => cases hc
      | redeploy | announcing | deploy | unbuilt | rejected | excusing =>
        cases hc
        exact hp _ rfl
    | _ => trivial
  · intro cs now work event new hs hp
    cases hs with
    | event key => exact fun claim h => by cases h
    | monitor => trivial

end CertRuns.Operator
