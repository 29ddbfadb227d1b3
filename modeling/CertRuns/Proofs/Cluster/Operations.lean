import CertRuns.Proofs.Cluster.Calls
import CertRuns.Proofs.Operator.Basic

/-!
# Operations on a store

What operators, users and tests do to a store, one operation at a time. Whatever it is, at most one
object is written or removed, and an object that is written gets the next version.

* `Operation`, `operate`, `Step` : the operations, and what one does and returns; `record` : the
  history of a list of them;
* `Place`, `metadata?` : the objects of a store, runs and pods alike;
* `Operation.target?`, `accepts`, `renewed?`, `takesVersion` : what an operation is to write, if it
  succeeds, which run it gives a version to although it fails, and whether it uses up a version;
* `Alters`, `operate_alters` : what becomes of the objects; `operate_written`, `operate_failed` :
  what an operation that succeeds has written, and what one that fails leaves;
* `Entered`, `operate_entered` : what becomes of the counts.
-/

namespace CertRuns.Store

/-- What can be done to a store. -/
inductive Operation where
  /-- An operator makes a call. -/
  | call (stamp : Stamp) (request : Request)
  /-- The cluster changes from outside. -/
  | outside (change : Outside)
  | showRun (key : ObjectKey)
  | showPod (key : ObjectKey)
  | showPodNames (ns : String)
  | countCreations
  | countWrites

/-- What an operation returns if it succeeds. -/
abbrev Operation.Value : Operation → Type
  | call _ request => request.Value
  | outside (.applyRun _ _) => Run
  | outside (.removeRun _) => Option Run
  | outside _ => Unit
  | showRun _ => Option Run
  | showPod _ => Option Pod
  | showPodNames _ => List String
  | countCreations | countWrites => Nat

/-- What an operation does and returns. -/
def operate (s : Store) : (o : Operation) → Store × Except ClusterError o.Value
  | .call stamp request => s.perform stamp request
  | .outside (.applyRun stamp run) => let (s, run) := s.applyRun stamp run; (s, .ok run)
  | .outside (.removeRun key) => let (s, run) := s.removeRun key; (s, .ok run)
  | .outside (.setPodStatus key status) => s.setPodStatus key status
  | .outside (.forceConflicts count) => (s.forceConflicts count, .ok ())
  | .outside (.rejectNextPod message) => (s.rejectNextPod message, .ok ())
  | .showRun key => (s, .ok (s.runs.get? key))
  | .showPod key => (s, .ok (s.pods.get? key))
  | .showPodNames ns => (s, .ok (s.podNames ns))
  | .countCreations => (s, .ok s.podsCreated)
  | .countWrites => (s, .ok s.statusWrites)

/-- An operation as a step. -/
def Step (s : Store) (o : Operation) (s' : Store) : Prop := s' = (s.operate o).1

/-- The history of operations on a new store, one after the other, and the store after them. -/
def record (operations : List Operation) : List (Store × Operation) × Store :=
  operations.foldl (fun (history, s) o => ((s, o) :: history, (s.operate o).1)) ([], {})

theorem record_execution (operations : List Operation) :
    Execution Step {} (record operations).1 (record operations).2 := by
  have hfold (past : List (Store × Operation) × Store) (h : Execution Step {} past.1 past.2) :
      let all := operations.foldl (fun (history, s) o => ((s, o) :: history, (s.operate o).1)) past
      Execution Step {} all.1 all.2 := by
    induction operations generalizing past with
    | nil => exact h
    | cons o operations ih => exact ih _ (.next h rfl)
  exact hfold _ .start

variable {s s' : Store} {o : Operation} {key : ObjectKey}

/-! ## Objects -/

/-- Where an object stands. -/
structure Place where
  kind : ObjectKind
  key : ObjectKey
  deriving DecidableEq, Repr

/-- The metadata of the object at a place. -/
def metadata? (s : Store) : Place → Option ObjectMeta
  | ⟨.run, key⟩ => (s.runs.get? key).map (·.metadata)
  | ⟨.pod, key⟩ => (s.pods.get? key).map (·.metadata)

variable {place : Place} {m : ObjectMeta}

theorem metadata?_same (hr : s'.runs = s.runs) (hp : s'.pods = s.pods) (place : Place) :
    s'.metadata? place = s.metadata? place := by
  obtain ⟨kind, key⟩ := place
  cases kind with
  | run => rw [metadata?, metadata?, hr]
  | pod => rw [metadata?, metadata?, hp]

/-- A run is stored, or removed. -/
theorem metadata?_run (run? : Option Run)
    (hr : ∀ k, s'.runs.get? k = if k = key then run? else s.runs.get? k) (hp : s'.pods = s.pods)
    (place : Place) : s'.metadata? place =
      if place = ⟨.run, key⟩ then run?.map (·.metadata) else s.metadata? place := by
  obtain ⟨kind, k⟩ := place
  cases kind with
  | run =>
    rw [metadata?, hr]
    by_cases hk : k = key
    · rw [if_pos hk, if_pos (by rw [hk])]
    · rw [if_neg hk, if_neg fun he => hk (congrArg Place.key he), metadata?]
  | pod => rw [metadata?, hp, if_neg (by simp), metadata?]

/-- A pod is stored, or removed. -/
theorem metadata?_pod (pod? : Option Pod) (hr : s'.runs = s.runs)
    (hp : ∀ k, s'.pods.get? k = if k = key then pod? else s.pods.get? k) (place : Place) :
    s'.metadata? place =
      if place = ⟨.pod, key⟩ then pod?.map (·.metadata) else s.metadata? place := by
  obtain ⟨kind, k⟩ := place
  cases kind with
  | run => rw [metadata?, hr, if_neg (by simp), metadata?]
  | pod =>
    rw [metadata?, hp]
    by_cases hk : k = key
    · rw [if_pos hk, if_pos (by rw [hk])]
    · rw [if_neg hk, if_neg fun he => hk (congrArg Place.key he), metadata?]

/-! ## What an operation is about -/

/-- The object that an operation is to write. -/
def Operation.target? : Operation → Option Place
  | call _ (.updateRunStatus run) => some ⟨.run, run.key⟩
  | call _ (.createPod pod) => some ⟨.pod, pod.key⟩
  | outside (.applyRun _ run) => some ⟨.run, run.key⟩
  | outside (.setPodStatus key _) => some ⟨.pod, key⟩
  | _ => none

def Operation.isStatusWrite : Operation → Bool
  | call _ (.updateRunStatus _) => true
  | _ => false

def Operation.isDeletion : Operation → Bool
  | call _ (.deletePod _) => true
  | _ => false

def Operation.isReport : Operation → Bool
  | outside (.setPodStatus _ _) => true
  | _ => false

/-- Does the operation succeed? -/
def accepts (s : Store) (o : Operation) : Bool := (s.operate o).2.isOk

/-- The run to which a conflict that was asked for gives a version. -/
def renewed? (s : Store) : Operation → Option Run
  | .call _ (.updateRunStatus run) => if 0 < s.forcedConflicts then s.runs.get? run.key else none
  | _ => none

/-- Is a version given out? A report about a pod uses up one even if the pod is missing. -/
def takesVersion (s : Store) (o : Operation) : Bool :=
  o.target?.isSome && s.accepts o || (s.renewed? o).isSome || o.isReport

/-! ## What becomes of the objects -/

/-- Every object stands under its own namespace and name. -/
def Keyed (s : Store) : Prop := ∀ place m, s.metadata? place = some m → m.key = place.key

theorem Keyed.run {run : Run} (hs : s.Keyed) (h : s.runs.get? key = some run) : run.key = key :=
  hs ⟨.run, key⟩ run.metadata (by rw [metadata?, h]; rfl)

theorem Keyed.pod {pod : Pod} (hs : s.Keyed) (h : s.pods.get? key = some pod) : pod.key = key :=
  hs ⟨.pod, key⟩ pod.metadata (by rw [metadata?, h]; rfl)

/-- What becomes of the objects of a store in an operation that is to write an object and succeeds
or not. -/
inductive Alters (s s' : Store) (target? : Option Place) (ok : Bool) : Prop
  /-- They stay. -/
  | kept (hw : target? = none ∨ ok = false) (hv : s.version ≤ s'.version)
      (hm : ∀ p, s'.metadata? p = s.metadata? p)
  /-- One is removed. -/
  | removed (place : Place) (hw : target? = none) (hv : s.version ≤ s'.version)
      (hm : ∀ p, s'.metadata? p = if p = place then none else s.metadata? p)
  /-- One is written under the next version. -/
  | written (place : Place) (m : ObjectMeta) (hw : target? = some place) (hk : m.key = place.key)
      (hv : s'.version = s.version + 1) (hn : m.resourceVersion = Decimal.text (s.version + 1))
      (hm : ∀ p, s'.metadata? p = if p = place then some m else s.metadata? p)

theorem Alters.of_eq {target? : Option Place} {ok : Bool} (hw : target? = none ∨ ok = false)
    (hv : s.version ≤ s'.version) (hr : s'.runs = s.runs) (hp : s'.pods = s.pods) :
    s.Alters s' target? ok := .kept hw hv (metadata?_same hr hp)

theorem updateRunStatus_alters (hs : s.Keyed) (w : Run) :
    s.Alters (s.updateRunStatus w).1 (some ⟨.run, w.key⟩) (s.updateRunStatus w).2.isOk := by
  have rewritten {s' : Store} {before : Run} (status : RunStatus) (ok : Bool)
      (hb : s.runs.get? w.key = some before) (hv : s'.version = s.version + 1)
      (hr : s'.runs = s.runs.insert w.key (before.rewritten status (s.version + 1)))
      (hp : s'.pods = s.pods) : s.Alters s' (some ⟨.run, w.key⟩) ok := by
    have hkey : before.key = w.key := hs.run hb
    refine .written ⟨.run, w.key⟩ (before.rewritten status (s.version + 1)).metadata rfl hkey hv
      rfl ?_
    exact metadata?_run (some _) (fun k => by rw [hr, Table.get?_insert]) hp
  have hend := s.statusWrite w
  generalize s.updateRunStatus w = result at hend ⊢
  cases hend with
  | missing | stale => exact .of_eq (.inr rfl) (Nat.le_refl _) rfl rfl
  | @forced before hb => exact rewritten before.status false hb rfl rfl rfl
  | accepted hb => exact rewritten w.status true hb rfl rfl rfl

theorem createPod_alters (s : Store) (stamp : Stamp) (pod : Pod) :
    s.Alters (s.createPod stamp pod).1 (some ⟨.pod, pod.key⟩) (s.createPod stamp pod).2.isOk := by
  have hend := s.podCreation stamp pod
  generalize s.createPod stamp pod = result at hend ⊢
  cases hend with
  | rejected | unnamed | taken => exact .of_eq (.inr rfl) (Nat.le_refl _) rfl rfl
  | created =>
    refine .written ⟨.pod, pod.key⟩ (pod.admitted stamp (s.version + 1)).metadata rfl rfl rfl rfl ?_
    exact metadata?_pod (some _) rfl fun k => Table.get?_insert _ _ _ _

theorem deletePod_alters (s : Store) (key : ObjectKey) (ok : Bool) :
    s.Alters (s.deletePod key).1 none ok := by
  have hend := s.podDeletion key
  generalize s.deletePod key = result at hend ⊢
  cases hend with
  | missing => exact .of_eq (.inl rfl) (Nat.le_refl _) rfl rfl
  | deleted =>
    refine .removed ⟨.pod, key⟩ rfl (Nat.le_refl _) ?_
    exact metadata?_pod none rfl fun k => Table.get?_erase _ _ _

theorem setPodStatus_alters (hs : s.Keyed) (key : ObjectKey) (status : PodStatus) :
    s.Alters (s.setPodStatus key status).1 (some ⟨.pod, key⟩)
      (s.setPodStatus key status).2.isOk := by
  have hend := s.podReport key status
  generalize s.setPodStatus key status = result at hend ⊢
  cases hend with
  | missing => exact .of_eq (.inr rfl) (Nat.le_succ _) rfl rfl
  | @reported pod hp =>
    have hkey : pod.key = key := hs.pod hp
    refine .written ⟨.pod, key⟩ (pod.reported status (s.version + 1)).metadata rfl hkey rfl rfl ?_
    exact metadata?_pod (some _) rfl fun k => Table.get?_insert _ _ _ _

theorem operate_alters (hs : s.Keyed) (o : Operation) :
    s.Alters (s.operate o).1 o.target? (s.accepts o) := by
  cases o with
  | call stamp request =>
    cases request with
    | getRun | listRuns | getPod | listPods => exact .of_eq (.inl rfl) (Nat.le_refl _) rfl rfl
    | updateRunStatus w => exact updateRunStatus_alters hs w
    | createPod pod => exact s.createPod_alters stamp pod
    | deletePod key => exact s.deletePod_alters key _
  | outside change =>
    cases change with
    | applyRun stamp run =>
      refine .written ⟨.run, run.key⟩ (s.applyRun stamp run).2.metadata rfl rfl rfl rfl ?_
      exact metadata?_run (some _) (fun k => Table.get?_insert _ _ _ _) rfl
    | removeRun key =>
      refine .removed ⟨.run, key⟩ rfl (Nat.le_refl _) ?_
      exact metadata?_run none (fun k => Table.get?_erase _ _ _) rfl
    | setPodStatus key status => exact setPodStatus_alters hs key status
    | forceConflicts | rejectNextPod => exact .of_eq (.inl rfl) (Nat.le_refl _) rfl rfl
  | showRun | showPod | showPodNames | countCreations | countWrites =>
    exact .of_eq (.inl rfl) (Nat.le_refl _) rfl rfl

theorem operate_written (hs : s.Keyed) (ht : o.target? = some place) (ha : s.accepts o = true) :
    ∃ m, (s.operate o).1.metadata? place = some m ∧
      m.resourceVersion = Decimal.text (s.version + 1) := by
  cases operate_alters hs o with
  | kept hw =>
    rcases hw with hnone | hfails
    · rw [ht] at hnone
      cases hnone
    · rw [ha] at hfails
      cases hfails
  | removed _ hw =>
    rw [ht] at hw
    cases hw
  | written _ m hw _ _ hn hm =>
    rw [ht] at hw
    cases hw
    exact ⟨m, by rw [hm, if_pos rfl], hn⟩

theorem eq_error_of_not_accepts (ha : s.accepts o = false) :
    ∃ e, s.operate o = ((s.operate o).1, .error e) := by
  unfold accepts at ha
  rcases hr : (s.operate o).2 with e | value
  · exact ⟨e, Prod.ext rfl hr⟩
  · rw [hr] at ha
    cases ha

/-- A write of a status that is refused leaves the runs as they are, apart from a conflict that was
asked for. -/
theorem updateRunStatus_refused (hs : s.Keyed) (stamp : Stamp) {w : Run} {e : ClusterError}
    (h : s.updateRunStatus w = (s', .error e)) :
    s'.runs =
      match s.renewed? (.call stamp (.updateRunStatus w)) with
      | none => s.runs
      | some run => s.runs.insert run.key (run.rewritten run.status (s.version + 1)) := by
  have hend := s.statusWrite w
  rw [h] at hend
  cases hend with
  | missing hb => rw [renewed?, hb, ite_self]
  | stale _ hf => rw [renewed?, hf, if_neg (Nat.lt_irrefl 0)]
  | @forced before hb hf =>
    rw [renewed?, hb, if_pos hf]
    show s.runs.insert w.key _ = s.runs.insert before.key _
    rw [hs.run hb]

theorem operate_failed (hs : s.Keyed) (ha : s.accepts o = false) :
    (s.operate o).1.pods = s.pods ∧
      (s.operate o).1.runs =
        match s.renewed? o with
        | none => s.runs
        | some run => s.runs.insert run.key (run.rewritten run.status (s.version + 1)) := by
  obtain ⟨e, h⟩ := eq_error_of_not_accepts ha
  cases o with
  | call stamp request =>
    cases request with
    | getRun | listRuns | getPod | listPods => exact ⟨rfl, rfl⟩
    | updateRunStatus w => exact ⟨s.pods_updateRunStatus w, updateRunStatus_refused hs stamp h⟩
    | createPod pod => exact ⟨createPod_error h, s.runs_createPod stamp pod⟩
    | deletePod key => exact ⟨deletePod_error h, s.runs_deletePod key⟩
  | outside change =>
    cases change with
    | setPodStatus key status => exact ⟨setPodStatus_error h, s.runs_setPodStatus key status⟩
    | applyRun | removeRun | forceConflicts | rejectNextPod => cases h
  | showRun | showPod | showPodNames | countCreations | countWrites => cases h

/-! ## What is entered in the counts -/

/-- What becomes of the counts in an operation that takes a version, deletes a pod or writes a
status, each of them or not. -/
structure Entered (s s' : Store) (takes deletes writes : Bool) : Prop where
  version : s'.version = s.version + takes.toNat
  pods : s'.podsCreated + s.pods.size = s.podsCreated + s'.pods.size + deletes.toNat
  statusWrites : s'.statusWrites = s.statusWrites + writes.toNat

theorem Entered.none (s : Store) : s.Entered s false false false := ⟨rfl, rfl, rfl⟩

theorem updateRunStatus_entered (s : Store) (stamp : Stamp) (w : Run) :
    s.Entered (s.updateRunStatus w).1 (s.takesVersion (.call stamp (.updateRunStatus w))) false
      (s.updateRunStatus w).2.isOk := by
  have hend := s.statusWrite w
  have htakes : s.takesVersion (.call stamp (.updateRunStatus w)) =
      ((s.updateRunStatus w).2.isOk ||
        (if 0 < s.forcedConflicts then s.runs.get? w.key else .none).isSome) := by
    simp [takesVersion, Operation.target?, Operation.isReport, accepts, operate, perform,
      renewed?]
  rw [htakes]
  generalize s.updateRunStatus w = result at hend ⊢
  cases hend with
  | missing hb => exact ⟨by rw [hb, ite_self]; rfl, rfl, rfl⟩
  | stale _ hf => exact ⟨by rw [hf, if_neg (Nat.lt_irrefl 0)]; rfl, rfl, rfl⟩
  | forced hb hf => exact ⟨by rw [hb, if_pos hf]; rfl, rfl, rfl⟩
  | accepted => exact ⟨rfl, rfl, rfl⟩

theorem createPod_entered (s : Store) (stamp : Stamp) (pod : Pod) :
    s.Entered (s.createPod stamp pod).1 (s.createPod stamp pod).2.isOk false false := by
  have hend := s.podCreation stamp pod
  generalize s.createPod stamp pod = result at hend ⊢
  cases hend with
  | rejected | unnamed | taken => exact ⟨rfl, rfl, rfl⟩
  | created _ _ hfree =>
    refine ⟨rfl, ?_, rfl⟩
    have hsize := s.pods.size_insert_of_none (pod.admitted stamp (s.version + 1)) hfree
    simp only [hsize]
    show s.podsCreated + 1 + s.pods.size = s.podsCreated + (s.pods.size + 1) + 0
    omega

theorem deletePod_entered (s : Store) (key : ObjectKey) :
    s.Entered (s.deletePod key).1 false (s.deletePod key).2.isOk false := by
  have hend := s.podDeletion key
  generalize s.deletePod key = result at hend ⊢
  cases hend with
  | missing => exact .none s
  | deleted hp =>
    refine ⟨rfl, ?_, rfl⟩
    have hsize := s.pods.size_erase_of_some hp
    show s.podsCreated + s.pods.size = s.podsCreated + (s.pods.erase key).size + 1
    omega

theorem setPodStatus_entered (s : Store) (key : ObjectKey) (status : PodStatus) :
    s.Entered (s.setPodStatus key status).1 true false false := by
  have hend := s.podReport key status
  generalize s.setPodStatus key status = result at hend ⊢
  cases hend with
  | missing => exact ⟨rfl, rfl, rfl⟩
  | reported hp =>
    refine ⟨rfl, ?_, rfl⟩
    simp only [s.pods.size_insert_of_some hp]
    rfl

theorem operate_entered (s : Store) (o : Operation) :
    s.Entered (s.operate o).1 (s.takesVersion o) (o.isDeletion && s.accepts o)
      (o.isStatusWrite && s.accepts o) := by
  cases o with
  | call stamp request =>
    cases request with
    | getRun | listRuns | getPod | listPods => exact .none s
    | updateRunStatus w => exact s.updateRunStatus_entered stamp w
    | createPod pod =>
      have htakes : s.takesVersion (.call stamp (.createPod pod)) =
          (s.createPod stamp pod).2.isOk := by
        simp [takesVersion, Operation.target?, Operation.isReport, accepts, operate, perform,
          renewed?]
      rw [htakes]
      exact s.createPod_entered stamp pod
    | deletePod key => exact s.deletePod_entered key
  | outside change =>
    cases change with
    | applyRun | removeRun | forceConflicts | rejectNextPod => exact ⟨rfl, rfl, rfl⟩
    | setPodStatus key status =>
      have htakes : s.takesVersion (.outside (.setPodStatus key status)) = true := Bool.or_true _
      rw [htakes]
      exact s.setPodStatus_entered key status
  | showRun | showPod | showPodNames | countCreations | countWrites => exact .none s

end CertRuns.Store
