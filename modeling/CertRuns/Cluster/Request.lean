import CertRuns.Cluster.Error
import CertRuns.Object.Pod
import CertRuns.Run.Basic

/-!
# Calls to the cluster

* `Request` : the calls that the operator makes;
* `Request.Value`, `Request.Reply` : what a call returns;
* `Request.method`, `Request.target` : the name of a call and the object that it is about.
-/

namespace CertRuns

inductive Request where
  | getRun (key : ObjectKey)
  | listRuns (ns : String)
  /-- Replace the status of a run; the run names the version that it was read with. -/
  | updateRunStatus (run : Run)
  | createPod (pod : Pod)
  | getPod (key : ObjectKey)
  | listPods (ns : String)
  | deletePod (key : ObjectKey)

inductive Method where
  | getRun
  | listRuns
  | updateRunStatus
  | createPod
  | getPod
  | listPods
  | deletePod
  deriving DecidableEq, Repr

namespace Method

def all : List Method :=
  [getRun, listRuns, updateRunStatus, createPod, getPod, listPods, deletePod]

def text : Method → String
  | getRun => "get_run"
  | listRuns => "list_runs"
  | updateRunStatus => "update_run_status"
  | createPod => "create_pod"
  | getPod => "get_pod"
  | listPods => "list_pods"
  | deletePod => "delete_pod"

def ofText? (s : String) : Option Method := all.find? (·.text == s)

/-- The kind of object that a call is about. -/
def kind : Method → ObjectKind
  | getRun | listRuns | updateRunStatus => .run
  | createPod | getPod | listPods | deletePod => .pod

end Method

namespace Request

abbrev Value : Request → Type
  | getRun _ => Run
  | listRuns _ => List Run
  | updateRunStatus _ => Run
  | createPod _ => Pod
  | getPod _ => Pod
  | listPods _ => List Pod
  | deletePod _ => Unit

abbrev Reply (r : Request) : Type := Except ClusterError r.Value

def method : Request → Method
  | getRun _ => .getRun
  | listRuns _ => .listRuns
  | updateRunStatus _ => .updateRunStatus
  | createPod _ => .createPod
  | getPod _ => .getPod
  | listPods _ => .listPods
  | deletePod _ => .deletePod

/-- The object that the call is about; the name is empty where it is about a namespace. -/
def target : Request → ObjectKey
  | getRun key => key
  | listRuns ns => ⟨ns, ""⟩
  | updateRunStatus run => run.key
  | createPod pod => pod.key
  | getPod key => key
  | listPods ns => ⟨ns, ""⟩
  | deletePod key => key

end Request

end CertRuns
