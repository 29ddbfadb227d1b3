import CertRuns.Proofs.Operator.Roles
import CertRuns.Proofs.Site.Basic

/-!
# Pods come and go

A pod is there from a call that creates it to one that deletes it, and nothing else adds or removes
pods: neither users nor other calls.

* `Move.creator?`, `Move.deletes` : a pod is created, and by whom; a pod is deleted;
* `Step.contains_pod` : which pods are there after a move;
* `creator?` : who has created a pod that is there, as long as it was there.
-/

namespace CertRuns

open Rehearsal (Work)

/-- The pod that is created, if a call is answered so. -/
def Wait.creation? : (wait : Wait) → wait.Event → Option ObjectKey
  | .call (.createPod pod), .ok _ => some pod.key
  | _, _ => none

/-- The pod that is deleted, if a call is answered so. -/
def Wait.deletion? : (wait : Wait) → wait.Event → Option ObjectKey
  | .call (.deletePod key), .ok _ => some key
  | _, _ => none

namespace Move

/-- Who creates a pod in a move. -/
def creator? (pod : ObjectKey) : Move → Option Role
  | .receive _ work event => if work.wait.creation? event = some pod then some work.role else none
  | _ => none

def deletes (pod : ObjectKey) : Move → Bool
  | .receive _ work event => work.wait.deletion? event == some pod
  | _ => false

end Move

namespace Store

variable {s s' : Store} {pod : ObjectKey}

/-! ## Calls -/

theorem Answers.creation {wait : Wait} {event : wait.Event} (h : s.Answers s' wait event)
    (hc : wait.creation? event = some pod) : s.pods.contains pod = false := by
  unfold Wait.creation? at hc
  split at hc
  · cases hc
    rcases h with ⟨stamp, h⟩ | ⟨⟨e, he⟩, _⟩
    · exact (createPod_ok h).1
    · cases he
  · cases hc

theorem Answers.contains_pod {wait : Wait} {event : wait.Event} (h : s.Answers s' wait event)
    (pod : ObjectKey) : s'.pods.contains pod = true ↔
      wait.creation? event = some pod ∨
        s.pods.contains pod = true ∧ wait.deletion? event ≠ some pod := by
  have kept (hs : s'.pods = s.pods) (hc : wait.creation? event = none)
      (hd : wait.deletion? event = none) : s'.pods.contains pod = true ↔
        wait.creation? event = some pod ∨
          s.pods.contains pod = true ∧ wait.deletion? event ≠ some pod := by
    rw [hs, hc, hd]
    simp
  cases wait with
  | sleep | pause | look | draw | never => exact kept (congrArg Store.pods h) rfl rfl
  | call r =>
    rcases h with ⟨stamp, h⟩ | ⟨⟨e, rfl⟩, rfl⟩
    · cases r with
      | getRun | listRuns | getPod | listPods =>
        exact kept (congrArg (·.1.pods) h).symm rfl rfl
      | updateRunStatus run =>
        refine kept ?_ rfl rfl
        rw [← pods_updateRunStatus s run]
        exact (congrArg (·.1.pods) h).symm
      | createPod new =>
        cases event with
        | error e => exact kept (createPod_error h) rfl rfl
        | ok stored =>
          rw [(createPod_ok h).2 pod]
          simp [Wait.creation?, Wait.deletion?]
      | deletePod key =>
        cases event with
        | error e => exact kept (deletePod_error h) rfl rfl
        | ok =>
          rw [deletePod_ok h pod]
          simp [Wait.creation?, Wait.deletion?]
    · cases r <;> exact kept rfl rfl rfl

end Store

theorem Outside.contains_pod (s : Store) (change : Outside) (pod : ObjectKey) :
    (change.apply s).pods.contains pod = s.pods.contains pod := by
  cases change with
  | setPodStatus key status =>
    show (s.setPodStatus key status).1.pods.contains pod = s.pods.contains pod
    have hend := s.podReport key status
    generalize s.setPodStatus key status = result at hend ⊢
    cases hend with
    | missing => rfl
    | reported hp =>
      simp only [Table.contains, Table.get?_insert]
      split
      · rename_i he
        rw [he, hp]
        rfl
      · rfl
  | _ => rfl

namespace Site

variable {t t' : Site} {m : Move} {history : List (Site × Move)} {pod : ObjectKey}

/-! ## Moves -/

theorem Step.creation (h : t.Step m t') {role : Role} (hc : m.creator? pod = some role) :
    t.store.pods.contains pod = false := by
  cases m with
  | receive id work event =>
    rw [Move.creator?] at hc
    split at hc
    · rename_i hcreation
      exact Store.Answers.creation h.2 hcreation
    · cases hc
  | _ => cases hc

theorem Step.contains_pod (h : t.Step m t') (pod : ObjectKey) :
    t'.store.pods.contains pod = true ↔
      (m.creator? pod).isSome = true ∨
        t.store.pods.contains pod = true ∧ m.deletes pod = false := by
  obtain ⟨_, hs⟩ := h
  cases m with
  | receive id work event =>
    rw [Store.Answers.contains_pod hs pod, Move.creator?, Move.deletes, beq_eq_false_iff_ne]
    by_cases hc : work.wait.creation? event = some pod
    · simp [hc]
    · simp [hc]
  | outside change =>
    rw [show t'.store = change.apply t.store from hs, change.contains_pod]
    simp [Move.creator?, Move.deletes]
  | _ =>
    rw [show t'.store = t.store from hs]
    simp [Move.creator?, Move.deletes]

/-! ## Creators -/

/-- Who has created a pod, the last time that it was created. -/
def creator? (pod : ObjectKey) (history : List (Site × Move)) : Option Role :=
  history.findSome? (·.2.creator? pod)

theorem creator?_cons : creator? pod ((t, m) :: history) =
    (m.creator? pod).or (creator? pod history) := by
  rw [creator?, List.findSome?_cons]
  cases m.creator? pod <;> rfl

end Site

end CertRuns
