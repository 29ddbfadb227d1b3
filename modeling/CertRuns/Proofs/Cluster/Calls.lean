import CertRuns.Proofs.Cluster.Versions
import CertRuns.Proofs.Table

/-!
# What a single call changes

* `Touches s s' key` : between two stores no run comes or goes, all keep what was asked for, and all
  but one are the same;
* `updateRunStatus_touches`, `touches_of_runs` : calls that do no more;
* `pods_updateRunStatus`, `runs_createPod`, `runs_deletePod`, `runs_setPodStatus` : calls about
  objects of one kind leave those of the other kind alone;
* `createPod_stored`, `createPod_ok`, `createPod_error`, `deletePod_pods`, `deletePod_ok` : the pods
  after a call.
-/

namespace CertRuns.Store

variable {s s' s'' : Store} {key : ObjectKey}

/-! ## Runs -/

/-- No run comes or goes, every run keeps its specification, and only the run with a key may have
another status or version. -/
structure Touches (s s' : Store) (key : ObjectKey) : Prop where
  specs : ∀ k, (s'.runs.get? k).map (·.spec) = (s.runs.get? k).map (·.spec)
  others : ∀ k, k ≠ key → s'.runs.get? k = s.runs.get? k

theorem touches_of_runs (h : s'.runs = s.runs) (key : ObjectKey) : s.Touches s' key := by
  refine ⟨fun k => ?_, fun k _ => ?_⟩ <;> rw [h]

theorem Touches.trans (h : s.Touches s' key) (h' : s'.Touches s'' key) : s.Touches s'' key :=
  ⟨fun k => (h'.specs k).trans (h.specs k), fun k hk => (h'.others k hk).trans (h.others k hk)⟩

theorem updateRunStatus_touches (s : Store) (w : Run) :
    s.Touches (s.updateRunStatus w).1 w.key := by
  have written {s' : Store} {before after : Run} (hb : s.runs.get? w.key = some before)
      (hr : s'.runs = s.runs.insert w.key after) (hspec : after.spec = before.spec) :
      s.Touches s' w.key := by
    refine ⟨fun k => ?_, fun k hk => ?_⟩
    · rw [hr, Table.get?_insert]
      split
      · rename_i hk
        rw [hk, hb, Option.map_some, Option.map_some, hspec]
      · rfl
    · rw [hr, Table.get?_insert, if_neg hk]
  have hend := s.statusWrite w
  generalize s.updateRunStatus w = result at hend ⊢
  cases hend with
  | missing | stale => exact touches_of_runs rfl _
  | forced hb | accepted hb => exact written hb rfl rfl

/-- A write that is refused changes no status. -/
theorem updateRunStatus_error {w r' : Run} {e : ClusterError}
    (h : s.updateRunStatus w = (s', .error e)) (hr : s'.runs.get? key = some r') :
    ∃ r, s.runs.get? key = some r ∧ r.status = r'.status := by
  have hend := s.statusWrite w
  rw [h] at hend
  cases hend with
  | missing | stale => exact ⟨r', hr, rfl⟩
  | @forced before hb =>
    simp only [Table.get?_insert] at hr
    split at hr
    · rename_i hk
      cases hr
      exact ⟨before, hk ▸ hb, rfl⟩
    · exact ⟨r', hr, rfl⟩

theorem pods_updateRunStatus (s : Store) (w : Run) : (s.updateRunStatus w).1.pods = s.pods := by
  have hend := s.statusWrite w
  generalize s.updateRunStatus w = result at hend ⊢
  cases hend with
  | missing | forced | stale | accepted => rfl

theorem runs_createPod (s : Store) (stamp : Stamp) (pod : Pod) :
    (s.createPod stamp pod).1.runs = s.runs := by
  have hend := s.podCreation stamp pod
  generalize s.createPod stamp pod = result at hend ⊢
  cases hend with
  | rejected | unnamed | taken | created => rfl

theorem runs_deletePod (s : Store) (pod : ObjectKey) : (s.deletePod pod).1.runs = s.runs := by
  have hend := s.podDeletion pod
  generalize s.deletePod pod = result at hend ⊢
  cases hend with
  | missing | deleted => rfl

theorem runs_setPodStatus (s : Store) (pod : ObjectKey) (status : PodStatus) :
    (s.setPodStatus pod status).1.runs = s.runs := by
  have hend := s.podReport pod status
  generalize s.setPodStatus pod status = result at hend ⊢
  cases hend with
  | missing | reported => rfl

/-! ## Pods -/

/-- A pod that is created was not there; it is stored as it was asked for, with the owners that it
names. -/
theorem createPod_stored {stamp : Stamp} {new stored : Pod}
    (h : s.createPod stamp new = (s', .ok stored)) :
    s.pods.get? new.key = none ∧ s'.pods = s.pods.insert new.key stored ∧
      stored.metadata.owners = new.metadata.owners := by
  have hend := s.podCreation stamp new
  rw [h] at hend
  cases hend with
  | created _ _ hfree => exact ⟨hfree, rfl, rfl⟩

theorem createPod_ok {stamp : Stamp} {new stored : Pod}
    (h : s.createPod stamp new = (s', .ok stored)) :
    s.pods.contains new.key = false ∧
      ∀ pod, s'.pods.contains pod = true ↔ new.key = pod ∨ s.pods.contains pod = true := by
  have hend := s.podCreation stamp new
  rw [h] at hend
  cases hend with
  | created _ _ hfree =>
    refine ⟨by rw [Table.contains, hfree]; rfl, fun pod => ?_⟩
    simp only [Table.contains, Table.get?_insert]
    by_cases hk : pod = new.key
    · simp [hk]
    · rw [if_neg hk]
      exact ⟨.inr, fun h => h.resolve_left fun h => hk h.symm⟩

theorem createPod_error {stamp : Stamp} {new : Pod} {e : ClusterError}
    (h : s.createPod stamp new = (s', .error e)) : s'.pods = s.pods := by
  have hend := s.podCreation stamp new
  rw [h] at hend
  cases hend with
  | rejected | unnamed | taken => rfl

theorem createPod_exists {stamp : Stamp} {pod : Pod} {kind : ObjectKind} {key : ObjectKey}
    (h : (s.createPod stamp pod).2 = .error (.alreadyExists kind key)) :
    s.pods.contains pod.key = true := by
  have hend := s.podCreation stamp pod
  generalize s.createPod stamp pod = result at hend h
  cases hend with
  | rejected | unnamed | created => cases h
  | taken _ _ ht => exact ht

theorem deletePod_pods (s : Store) (pod : ObjectKey) :
    (s.deletePod pod).1.pods = s.pods.erase pod := by
  have hend := s.podDeletion pod
  generalize s.deletePod pod = result at hend ⊢
  cases hend with
  | missing hp => exact (Table.erase_of_none _ hp).symm
  | deleted => rfl

theorem deletePod_ok {key : ObjectKey} (h : s.deletePod key = (s', .ok ())) (pod : ObjectKey) :
    s'.pods.contains pod = true ↔ s.pods.contains pod = true ∧ key ≠ pod := by
  have hend := s.podDeletion key
  rw [h] at hend
  cases hend with
  | deleted =>
    simp only [Table.contains, Table.get?_erase]
    by_cases hk : pod = key
    · simp [hk]
    · rw [if_neg hk]
      exact ⟨fun h => ⟨h, fun h => hk h.symm⟩, And.left⟩

theorem deletePod_error {key : ObjectKey} {e : ClusterError}
    (h : s.deletePod key = (s', .error e)) : s'.pods = s.pods := by
  have hend := s.podDeletion key
  rw [h] at hend
  cases hend with
  | missing => rfl

theorem setPodStatus_error {status : PodStatus} {e : ClusterError}
    (h : s.setPodStatus key status = (s', .error e)) : s'.pods = s.pods := by
  have hend := s.podReport key status
  rw [h] at hend
  cases hend with
  | missing => rfl

end CertRuns.Store
