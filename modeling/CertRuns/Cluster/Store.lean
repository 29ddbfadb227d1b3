import CertRuns.Cluster.Request

/-!
# A cluster in memory

The store versions its objects: every write takes a new version from one counter, and a write of a
run's status that names another version than the stored one is refused as a conflict. A few
switches inject failures.

* `Store` : runs and pods by their keys, the version counter, the switches and two counts;
* `Store.applyRun`, `removeRun`, `setPodStatus`, `forceConflicts`, `rejectNextPod` : what happens
  from outside;
* `Store.perform` : what a call of the operator does and returns.
-/

namespace CertRuns

structure Store where
  runs : Table ObjectKey Run := .empty
  pods : Table ObjectKey Pod := .empty
  /-- The number of versions that were given out. -/
  version : Nat := 0
  /-- How many status writes to come are refused with a conflict. -/
  forcedConflicts : Nat := 0
  /-- The message that the next creation of a pod is refused with. -/
  rejection : Option String := none
  podsCreated : Nat := 0
  statusWrites : Nat := 0
  deriving Inhabited

namespace Store

def bump (s : Store) : Store := { s with version := s.version + 1 }

/-- The version given out last, as objects carry it. -/
def versionText (s : Store) : String := Decimal.text s.version

/-! ## From outside -/

/-- Store a run as a user applies it. Identity and time of creation are filled in where missing. -/
def applyRun (s : Store) (stamp : Stamp) (run : Run) : Store × Run :=
  let s := s.bump
  let uid := if run.metadata.uid = "" then stamp.uid else run.metadata.uid
  let metadata := { run.metadata with
    uid
    created := some (run.metadata.created.getD stamp.date)
    resourceVersion := s.versionText }
  let run := { run with metadata }
  ({ s with runs := s.runs.insert run.key run }, run)

def removeRun (s : Store) (key : ObjectKey) : Store × Option Run :=
  ({ s with runs := s.runs.erase key }, s.runs.get? key)

def forceConflicts (s : Store) (count : Nat) : Store := { s with forcedConflicts := count }

def rejectNextPod (s : Store) (message : String) : Store := { s with rejection := some message }

/-- Report a status for a pod. The version is given out even if the pod is missing. -/
def setPodStatus (s : Store) (key : ObjectKey) (status : PodStatus) :
    Store × Except ClusterError Unit :=
  let s := s.bump
  match s.pods.get? key with
  | none => (s, .error (.notFound .pod key))
  | some pod =>
    let pod := { pod with
      status := some status
      metadata := { pod.metadata with resourceVersion := s.versionText } }
    ({ s with pods := s.pods.insert key pod }, .ok ())

/-- The names of the pods in a namespace, in order. -/
def podNames (s : Store) (ns : String) : List String :=
  (s.pods.keys.filter (·.ns == ns)).map (·.name)

/-! ## Calls -/

def getRun (s : Store) (key : ObjectKey) : Except ClusterError Run :=
  match s.runs.get? key with
  | some run => .ok run
  | none => .error (.notFound .run key)

/-- The runs of a namespace in the order of their names. -/
def listRuns (s : Store) (ns : String) : List Run :=
  s.runs.values.filter (·.metadata.ns == ns)

/-- Replace a run's status if the write names the stored version. -/
def updateRunStatus (s : Store) (run : Run) : Store × Except ClusterError Run :=
  let key := run.key
  match s.runs.get? key with
  | none => (s, .error (.notFound .run key))
  | some stored =>
    let renewed := { stored with
      metadata := { stored.metadata with resourceVersion := s.bump.versionText } }
    if 0 < s.forcedConflicts then
      ({ s.bump with
          forcedConflicts := s.forcedConflicts - 1
          runs := s.runs.insert key renewed },
        .error (.conflict .run key))
    else if stored.metadata.resourceVersion = run.metadata.resourceVersion then
      let written := { renewed with status := run.status }
      ({ s.bump with
          statusWrites := s.statusWrites + 1
          runs := s.runs.insert key written },
        .ok written)
    else (s, .error (.conflict .run key))

/-- Store a new pod. Identity, version and time of creation are not its own. -/
def createPod (s : Store) (stamp : Stamp) (pod : Pod) : Store × Except ClusterError Pod :=
  match s.rejection with
  | some message => ({ s with rejection := none }, .error (.api 422 message))
  | none =>
    if pod.metadata.name = "" then (s, .error (.api 422 "pod name is required"))
    else if s.pods.contains pod.key then (s, .error (.alreadyExists .pod pod.key))
    else
      let s := s.bump
      let metadata := { pod.metadata with
        uid := stamp.uid
        resourceVersion := s.versionText
        created := some stamp.date }
      let stored := { pod with metadata, status := some {} }
      ({ s with
          pods := s.pods.insert pod.key stored
          podsCreated := s.podsCreated + 1 },
        .ok stored)

def getPod (s : Store) (key : ObjectKey) : Except ClusterError Pod :=
  match s.pods.get? key with
  | some pod => .ok pod
  | none => .error (.notFound .pod key)

/-- The pods of a namespace in the order of their names. -/
def listPods (s : Store) (ns : String) : List Pod :=
  (s.pods.entries.filter (·.1.ns == ns)).map (·.2)

def deletePod (s : Store) (key : ObjectKey) : Store × Except ClusterError Unit :=
  match s.pods.get? key with
  | some _ => ({ s with pods := s.pods.erase key }, .ok ())
  | none => (s, .error (.notFound .pod key))

def perform (s : Store) (stamp : Stamp) : (r : Request) → Store × r.Reply
  | .getRun key => (s, s.getRun key)
  | .listRuns ns => (s, .ok (s.listRuns ns))
  | .updateRunStatus run => s.updateRunStatus run
  | .createPod pod => s.createPod stamp pod
  | .getPod key => (s, s.getPod key)
  | .listPods ns => (s, .ok (s.listPods ns))
  | .deletePod key => s.deletePod key

end Store

end CertRuns
