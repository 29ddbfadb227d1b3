import CertRuns.Cluster.Store

/-!
# How a store answers

A write of a status, the creation and the deletion of a pod and a report about one can each end in a
few ways. They are listed here with all that becomes of the store and with the answer, so that what
else is known of these calls is read off the list.

* `Run.rewritten`, `Pod.admitted`, `Pod.reported` : the objects that are stored;
* `StatusWrite`, `PodCreation`, `PodDeletion`, `PodReport` : the ways to end;
* `statusWrite`, `podCreation`, `podDeletion`, `podReport` : there are no others.
-/

namespace CertRuns

/-- The run after a write of its status that gives it a version. -/
def Run.rewritten (run : Run) (status : RunStatus) (version : Nat) : Run :=
  { run with
    status
    metadata := { run.metadata with resourceVersion := Decimal.text version } }

def Pod.admitted (pod : Pod) (stamp : Stamp) (version : Nat) : Pod :=
  { pod with
    metadata := { pod.metadata with
      uid := stamp.uid
      resourceVersion := Decimal.text version
      created := some stamp.date }
    status := some {} }

def Pod.reported (pod : Pod) (status : PodStatus) (version : Nat) : Pod :=
  { pod with
    status := some status
    metadata := { pod.metadata with resourceVersion := Decimal.text version } }

namespace Store

/-- How a write of a status ends. -/
inductive StatusWrite (s : Store) (w : Run) : Store × Except ClusterError Run → Prop
  | missing (hb : s.runs.get? w.key = none) : StatusWrite s w (s, .error (.notFound .run w.key))
  /-- A conflict that was asked for. The run gets a version, as if somebody else had written it. -/
  | forced {before : Run} (hb : s.runs.get? w.key = some before) (hf : 0 < s.forcedConflicts) :
      StatusWrite s w
        ({ s.bump with
            forcedConflicts := s.forcedConflicts - 1
            runs := s.runs.insert w.key (before.rewritten before.status (s.version + 1)) },
          .error (.conflict .run w.key))
  /-- The write names another version than the stored one. -/
  | stale {before : Run} (hb : s.runs.get? w.key = some before) (hf : s.forcedConflicts = 0)
      (hv : before.metadata.resourceVersion ≠ w.metadata.resourceVersion) :
      StatusWrite s w (s, .error (.conflict .run w.key))
  | accepted {before : Run} (hb : s.runs.get? w.key = some before) (hf : s.forcedConflicts = 0)
      (hv : before.metadata.resourceVersion = w.metadata.resourceVersion) :
      StatusWrite s w
        ({ s.bump with
            statusWrites := s.statusWrites + 1
            runs := s.runs.insert w.key (before.rewritten w.status (s.version + 1)) },
          .ok (before.rewritten w.status (s.version + 1)))

theorem statusWrite (s : Store) (w : Run) : StatusWrite s w (s.updateRunStatus w) := by
  unfold updateRunStatus
  cases hb : s.runs.get? w.key with
  | none =>
    simp only [hb]
    exact .missing hb
  | some before =>
    simp only [hb]
    by_cases hf : 0 < s.forcedConflicts
    · rw [if_pos hf]
      exact .forced hb hf
    · have hzero : s.forcedConflicts = 0 := by omega
      rw [if_neg hf]
      split
      · rename_i hv
        exact .accepted hb hzero hv
      · rename_i hv
        exact .stale hb hzero hv

/-- How the creation of a pod ends. -/
inductive PodCreation (s : Store) (stamp : Stamp) (pod : Pod) :
    Store × Except ClusterError Pod → Prop
  /-- A rejection that was asked for. -/
  | rejected {message : String} (hr : s.rejection = some message) :
      PodCreation s stamp pod ({ s with rejection := none }, .error (.api 422 message))
  | unnamed (hr : s.rejection = none) (hn : pod.metadata.name = "") :
      PodCreation s stamp pod (s, .error (.api 422 "pod name is required"))
  | taken (hr : s.rejection = none) (hn : pod.metadata.name ≠ "")
      (ht : s.pods.contains pod.key = true) :
      PodCreation s stamp pod (s, .error (.alreadyExists .pod pod.key))
  | created (hr : s.rejection = none) (hn : pod.metadata.name ≠ "")
      (hfree : s.pods.get? pod.key = none) :
      PodCreation s stamp pod
        ({ s.bump with
            pods := s.pods.insert pod.key (pod.admitted stamp (s.version + 1))
            podsCreated := s.podsCreated + 1 },
          .ok (pod.admitted stamp (s.version + 1)))

theorem podCreation (s : Store) (stamp : Stamp) (pod : Pod) :
    PodCreation s stamp pod (s.createPod stamp pod) := by
  unfold createPod
  split
  · rename_i message hr
    exact .rejected hr
  · rename_i hr
    split
    · rename_i hn
      exact .unnamed hr hn
    · rename_i hn
      split
      · rename_i ht
        exact .taken hr hn ht
      · rename_i hfree
        exact .created hr hn (Option.not_isSome_iff_eq_none.mp hfree)

/-- How the deletion of a pod ends. -/
inductive PodDeletion (s : Store) (key : ObjectKey) : Store × Except ClusterError Unit → Prop
  | missing (hp : s.pods.get? key = none) : PodDeletion s key (s, .error (.notFound .pod key))
  | deleted {pod : Pod} (hp : s.pods.get? key = some pod) :
      PodDeletion s key ({ s with pods := s.pods.erase key }, .ok ())

theorem podDeletion (s : Store) (key : ObjectKey) : PodDeletion s key (s.deletePod key) := by
  unfold deletePod
  split
  · rename_i hp
    exact .deleted hp
  · rename_i hp
    exact .missing hp

/-- How a report about a pod ends. It takes a version in any case. -/
inductive PodReport (s : Store) (key : ObjectKey) (status : PodStatus) :
    Store × Except ClusterError Unit → Prop
  | missing (hp : s.pods.get? key = none) :
      PodReport s key status (s.bump, .error (.notFound .pod key))
  | reported {pod : Pod} (hp : s.pods.get? key = some pod) :
      PodReport s key status
        ({ s.bump with pods := s.pods.insert key (pod.reported status (s.version + 1)) }, .ok ())

theorem podReport (s : Store) (key : ObjectKey) (status : PodStatus) :
    PodReport s key status (s.setPodStatus key status) := by
  have hpods : s.bump.pods = s.pods := rfl
  unfold setPodStatus
  simp only [hpods]
  cases hp : s.pods.get? key with
  | none => exact .missing hp
  | some pod => exact .reported hp

end Store

end CertRuns
