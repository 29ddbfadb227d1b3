import CertRuns.Proofs.Operator.Entries

/-!
# One reconciliation at a time

A reconciliation takes a run on when it finds no entry for it, and makes one at once. So as long as
nobody takes the entry away, no other reconciliation under the same controller gets a pod for the run.

* `engaged` : a task is getting a pod for a run;
* `Engages` : how this comes about; `Step.engages` : it comes about in one of these ways;
* `Exclusive` : such a run has an entry, and no second task gets a pod for it; kept by every move in
  which nobody sees the run missing (`Exclusive.step`);
* `exclusive` : so it is from a moment on at which nobody is getting a pod for the run.
-/

namespace CertRuns.Operator

open Rehearsal (Work)

variable {c c' : Operator} {m : Move} {owner i j : Nat} {key : ObjectKey}
  {history : List (Operator × Move)}

def engaged (c : Operator) (owner : Nat) (key : ObjectKey) (i : Nat) : Prop :=
  ∃ told stage answer, c.progress? i = some (.waiting (.reconcile owner told ⟨key, stage⟩) answer) ∧
    stage.busy = true

/-- How it comes about that a task is getting a pod for a run. -/
inductive Engages (c : Operator) (owner : Nat) (key : ObjectKey) (i : Nat) (c' : Operator)
    (m : Move) : Prop
  /-- It has been at it, and has not moved. -/
  | kept (hm : m.subject? ≠ some i) (h : c.engaged owner key i)
  /-- It has been at it, and has not given up the entry. -/
  | carried (h : c.engaged owner key i)
      (ht : (c.tracked? owner key).isSome = true → (c'.tracked? owner key).isSome = true)
  /-- It has taken the run on. -/
  | begun (hm : m.subject? = some i) (hn : c.tracked? owner key = none)
      (ht : (c'.tracked? owner key).isSome = true)

theorem Step.engages (h : c.Step m c') (hi : c'.engaged owner key i) :
    Engages c owner key i c' m := by
  obtain ⟨told, stage, answer, hw, hb⟩ := hi
  have hhandles := h.handles owner
  cases h.waits hw with
  | kept hm hbefore => exact .kept hm ⟨told, stage, answer, hbefore, hb⟩
  | received hbefore =>
    refine .carried ⟨told, stage, none, hbefore, hb⟩ fun hsome => ?_
    cases hhandles with
    | idle ht => rwa [tracked?, ht]
  | resumed hbefore hg =>
    cases hg with
    | @reconcile _ _ k old event d d' d'' _ hd hr hcs htracker =>
      obtain rfl : key = k := hr.key_going
      have hset : c'.tracker owner = d''.tracker :=
        (set_controller owner hd (h.controllers.trans hcs)).1.trans (if_pos rfl)
      rw [htracker] at hset
      rcases hr.busy_going hb with ⟨hbusy, hkept⟩ | ⟨hnone, hsome⟩
      · refine .carried ⟨told, old, some event, hbefore, hbusy⟩ ?_
        rwa [tracked?, tracked?, tracker_eq hd, hset]
      · refine .begun rfl ?_ ?_
        · rw [tracked?, tracker_eq hd, hnone]
        · rw [tracked?, hset, hsome]
  | started _ hm =>
    cases hm
    cases hb
  | spawned _ _ hs =>
    cases hs
    cases hb

/-- A run for which a task is getting a pod has an entry, and there is only one such task. -/
structure Exclusive (owner : Nat) (key : ObjectKey) (c : Operator) : Prop where
  tracked {i : Nat} (h : c.engaged owner key i) : (c.tracked? owner key).isSome = true
  unique {i j : Nat} (hi : c.engaged owner key i) (hj : c.engaged owner key j) : i = j

/-- The entry of a run stays while nobody sees the run missing and the task that is getting a pod for
it does not move. -/
theorem Exclusive.tracked_kept (he : Exclusive owner key c) (h : c.Step m c') (hown : OwnClaims c)
    (hmiss : misses owner key (c, m) = false) (hm : m.subject? ≠ some i)
    (hi : c.engaged owner key i) : (c'.tracked? owner key).isSome = true := by
  have hsome := he.tracked hi
  cases h.alters hown owner key with
  | same hentry => rwa [hentry]
  | claimed _ hentry | committed _ _ _ hentry | completed _ hentry => rw [hentry, Option.isSome_some]
  | removed hc =>
    rw [cleans, hmiss] at hc
    cases hc
  | released hc =>
    have hj := he.unique ⟨_, _, _, h.1, Reconcile.Stage.busy_of_claim? hc⟩ hi
    exact absurd (congrArg some hj) hm

theorem Exclusive.step (he : Exclusive owner key c) (h : c.Step m c') (hown : OwnClaims c)
    (hmiss : misses owner key (c, m) = false) : Exclusive owner key c' := by
  have alone {i j : Nat} (hn : c.tracked? owner key = none) (hj : c.engaged owner key j) :
      i = j := by
    have hsome := he.tracked hj
    rw [hn] at hsome
    cases hsome
  refine ⟨fun hi => ?_, fun hi hj => ?_⟩
  · cases h.engages hi with
    | kept hm hi => exact he.tracked_kept h hown hmiss hm hi
    | carried hi ht => exact ht (he.tracked hi)
    | begun _ _ ht => exact ht
  · cases h.engages hi with
    | kept _ hi | carried hi =>
      cases h.engages hj with
      | kept _ hj | carried hj => exact he.unique hi hj
      | begun _ hn => exact (alone hn hi).symm
    | begun hm hn =>
      cases h.engages hj with
      | kept _ hj | carried hj => exact alone hn hj
      | begun hm' => exact Option.some.inj (hm.symm.trans hm')

/-- From a moment on at which nobody is getting a pod for a run, one task at most does so at a time, as
long as nobody sees the run missing. -/
theorem exclusive {early : List (Operator × Move)} (hearly : Execution Step {} early c)
    (hfree : ∀ i, ¬ c.engaged owner key i) (h : Execution Step c history c')
    (hmiss : ∀ moment ∈ history, misses owner key moment = false) : Exclusive owner key c' := by
  induction h with
  | start => exact ⟨fun hi => absurd hi (hfree _), fun hi => absurd hi (hfree _)⟩
  | next before last ih =>
    have he := ih fun moment hm => hmiss moment (List.mem_cons_of_mem _ hm)
    exact he.step last (ownClaims (hearly.trans before)) (hmiss _ List.mem_cons_self)

end CertRuns.Operator
