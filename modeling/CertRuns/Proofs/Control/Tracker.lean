import CertRuns.Control.Tracker

/-!
# The entries of a tracker after an operation

No later proof opens an operation of the tracker.

* `Tracker.claimed`, `committed`, `without` : the tracker after a claim that is granted, a claim
  that is committed, a removal; `claim_eq_some`, `commit_of_holds`, `remove_eq_some` lead there;
* `get?_claimed`, `get?_committed`, `get?_without`, `get?_release`, `get?_complete` : what is found
  there.
-/

namespace CertRuns.Tracker

variable {t : Tracker} {key k : ObjectKey} {c : RunClaim} {run : TrackedRun}

def claimed (t : Tracker) (key : ObjectKey) : Tracker :=
  ⟨t.runs.insert key ⟨t.claims + 1, none, none, .deploying⟩, t.claims + 1⟩

def committed (t : Tracker) (c : RunClaim) (podName : String) (cancel : Token) : Tracker :=
  { t with runs := t.runs.insert c.key ⟨c.number, some podName, some cancel, .running⟩ }

def without (t : Tracker) (key : ObjectKey) : Tracker := { t with runs := t.runs.erase key }

theorem claim_eq_none (h : t.runs.get? key = some run) : t.claim key = (t, none) := by
  unfold claim
  rw [if_pos (by rw [Table.contains, h, Option.isSome_some])]

theorem claim_eq_some (h : t.runs.get? key = none) :
    t.claim key = (t.claimed key, some ⟨key, t.claims + 1⟩) := by
  unfold claim
  rw [if_neg (by rw [Table.contains, h]; decide)]
  rfl

theorem holds_iff : t.holds c = true ↔ ∃ run, t.runs.get? c.key = some run ∧
    run.number = c.number := by
  unfold holds
  split
  · rename_i run h
    simp [h]
  · rename_i h
    simp [h]

theorem holds_congr {t t' : Tracker} (h : t.runs.get? c.key = t'.runs.get? c.key) :
    t.holds c = t'.holds c := by
  unfold holds
  rw [h]

theorem holds_of_none (h : t.runs.get? c.key = none) : t.holds c = false := by
  unfold holds
  rw [h]

theorem holds_of_some (h : t.runs.get? c.key = some run) :
    t.holds c = (run.number == c.number) := by
  unfold holds
  rw [h]

theorem commit_of_holds {podName : String} {cancel : Token} (h : t.holds c = true) :
    t.commit c podName cancel = (t.committed c podName cancel, true) := by
  unfold commit
  rw [if_pos h]
  rfl

theorem commit_of_not_holds {podName : String} {cancel : Token} (h : t.holds c = false) :
    t.commit c podName cancel = (t, false) := by
  unfold commit
  rw [if_neg (by simp [h])]

theorem release_of_holds (h : t.holds c = true) : t.release c = t.without c.key := by
  unfold release
  rw [if_pos h]
  rfl

theorem release_of_not_holds (h : t.holds c = false) : t.release c = t := by
  unfold release
  rw [if_neg (by simp [h])]

theorem get?_release (t : Tracker) (c : RunClaim) (k : ObjectKey) :
    (t.release c).runs.get? k =
      if t.holds c = true ∧ k = c.key then none else t.runs.get? k := by
  unfold release
  by_cases h : t.holds c = true
  · rw [if_pos h, Table.get?_erase]
    by_cases hk : k = c.key
    · rw [if_pos hk, if_pos ⟨h, hk⟩]
    · rw [if_neg hk, if_neg (fun hc => hk hc.2)]
  · rw [if_neg h, if_neg (fun hc => h hc.1)]

@[simp] theorem claims_release (t : Tracker) (c : RunClaim) : (t.release c).claims = t.claims := by
  unfold release
  split <;> rfl

theorem get?_complete (t : Tracker) (key k : ObjectKey) :
    (t.complete key).runs.get? k =
      if k = key then (t.runs.get? k).map fun run => { run with state := .completed }
      else t.runs.get? k :=
  Table.get?_adjust _ _ _ _

theorem remove_eq_none (h : t.runs.get? key = none) : t.remove key = (t.without key, none) := by
  rw [remove, h, Option.map_none]
  rfl

theorem remove_eq_some (h : t.runs.get? key = some run) :
    t.remove key = (t.without key, some ⟨run.podName, run.cancel⟩) := by
  rw [remove, h, Option.map_some]
  rfl

theorem get?_claimed (t : Tracker) (key k : ObjectKey) : (t.claimed key).runs.get? k =
    if k = key then some ⟨t.claims + 1, none, none, .deploying⟩ else t.runs.get? k :=
  Table.get?_insert _ _ _ _

theorem get?_committed (t : Tracker) (c : RunClaim) (podName : String) (cancel : Token)
    (k : ObjectKey) : (t.committed c podName cancel).runs.get? k =
      if k = c.key then some ⟨c.number, some podName, some cancel, .running⟩
      else t.runs.get? k :=
  Table.get?_insert _ _ _ _

theorem get?_without (t : Tracker) (key k : ObjectKey) :
    (t.without key).runs.get? k = if k = key then none else t.runs.get? k :=
  Table.get?_erase _ _ _

end CertRuns.Tracker
