import CertRuns.Object.Meta

/-!
# Pods

The parts of a pod that the operator reads and writes.

* `EnvVar`, `VolumeMount`, `Container` : one container and what it sees;
* `Volume`, `PodSpec` : the containers of a pod and the volumes they share;
* `PodPhase`, `ContainerStatus`, `PodStatus` : what the cluster reports about a pod;
* `Pod` with `Pod.container?`, `Pod.phase`, `Pod.key`.
-/

namespace CertRuns

/-! ## Containers -/

/-- A reference to a field of the pod that a container runs in. -/
structure FieldRef where
  fieldPath : String
  deriving DecidableEq, Repr, Inhabited

/-- Where the value of an environment variable comes from. -/
structure EnvVarSource where
  fieldRef : Option FieldRef := none
  deriving DecidableEq, Repr, Inhabited

/-- An environment variable of a container. -/
structure EnvVar where
  name : String
  value : Option String := none
  valueFrom : Option EnvVarSource := none
  deriving DecidableEq, Repr, Inhabited

def EnvVar.fixed (name value : String) : EnvVar := { name, value := some value }

/-- A variable that holds a field of the pod. -/
def EnvVar.podField (name fieldPath : String) : EnvVar :=
  { name, valueFrom := some { fieldRef := some { fieldPath } } }

/-- A volume as a container sees it. -/
structure VolumeMount where
  name : String
  mountPath : String
  readOnly : Bool := false
  deriving DecidableEq, Repr, Inhabited

structure Container where
  name : String
  image : String := ""
  command : List String := []
  args : List String := []
  env : List EnvVar := []
  imagePullPolicy : String := ""
  volumeMounts : List VolumeMount := []
  deriving DecidableEq, Repr, Inhabited

/-! ## Volumes -/

/-- An empty directory, shared while the pod lives. -/
structure EmptyDir where
  deriving DecidableEq, Repr, Inhabited

/-- The name of a config map. -/
structure ConfigMapSource where
  name : String
  deriving DecidableEq, Repr, Inhabited

structure SecretSource where
  secretName : String
  deriving DecidableEq, Repr, Inhabited

/-- A volume that the containers of a pod may mount. -/
structure Volume where
  name : String
  emptyDir : Option EmptyDir := none
  configMap : Option ConfigMapSource := none
  secret : Option SecretSource := none
  deriving DecidableEq, Repr, Inhabited

/-- What a pod is made of. -/
structure PodSpec where
  serviceAccountName : String := ""
  restartPolicy : String := ""
  containers : List Container := []
  volumes : List Volume := []
  deriving DecidableEq, Repr, Inhabited

/-! ## Status -/

/-- How far a pod has come. A phase that the operator does not know is `unknown`. -/
inductive PodPhase where
  | pending
  | running
  | succeeded
  | failed
  | unknown
  deriving DecidableEq, Repr, Inhabited

namespace PodPhase

def text : PodPhase → String
  | pending => "Pending"
  | running => "Running"
  | succeeded => "Succeeded"
  | failed => "Failed"
  | unknown => "Unknown"

def ofText (s : String) : PodPhase :=
  if s = "Pending" then pending
  else if s = "Running" then running
  else if s = "Succeeded" then succeeded
  else if s = "Failed" then failed
  else unknown

theorem ofText_text (p : PodPhase) : ofText p.text = p := by cases p <;> rfl

end PodPhase

structure Termination where
  exitCode : Int32
  reason : Option String := none
  deriving DecidableEq, Inhabited

instance : Repr Termination := ⟨fun t _ => repr (t.exitCode.toInt, t.reason)⟩

/-- What is known about a container. -/
structure ContainerState where
  terminated : Option Termination := none
  deriving DecidableEq, Repr, Inhabited

/-- What the cluster reports about a container. -/
structure ContainerStatus where
  name : String
  state : ContainerState := {}
  deriving DecidableEq, Repr, Inhabited

/-- The report about a container that ended with `exitCode`. -/
def ContainerStatus.ended (name : String) (exitCode : Int32) : ContainerStatus :=
  { name, state := { terminated := some { exitCode } } }

/-- What the cluster reports about a pod. -/
structure PodStatus where
  phase : PodPhase := .pending
  containers : List ContainerStatus := []
  deriving DecidableEq, Repr, Inhabited

/-! ## Pods -/

/-- A group of containers that run together. -/
structure Pod where
  apiVersion : String := "v1"
  kind : String := "Pod"
  metadata : ObjectMeta := {}
  spec : PodSpec := {}
  status : Option PodStatus := none
  deriving DecidableEq, Repr, Inhabited

namespace Pod

def key (p : Pod) : ObjectKey := p.metadata.key

def container? (p : Pod) (name : String) : Option Container :=
  p.spec.containers.find? (·.name == name)

def phase (p : Pod) : PodPhase := (p.status.map (·.phase)).getD .pending

end Pod

end CertRuns
