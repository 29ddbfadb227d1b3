import CertRuns.Object.Meta
import CertRuns.Run.Report

/-!
# Runs of the certification suite

A run is a stored object that asks for one execution of the suite. Its status belongs to the
operator.

* `RunSpec` : what is asked for; `Phase`, `RunStatus` : how far the run has come;
* `Run` with `Run.key`, `Run.ownerReference` and `Run.recordedPod?`.
-/

namespace CertRuns

structure RunSpec where
  labelsFilter : String := ""
  logLevel : String := ""
  timeout : String := ""
  configMapName : String := ""
  preflightSecretName : Option String := none
  enableDataCollection : Bool := false
  showAllResultsLogs : Bool := false
  showCompliantResourcesAlways : Bool := false
  deriving DecidableEq, Repr, Inhabited

/-! ## Status -/

/-- How far a run has come. -/
inductive Phase where
  | unset
  | deploying
  | deployError
  | running
  | finished
  | error
  deriving DecidableEq, Repr, Inhabited

namespace Phase

/-- The name of a phase; a run that nobody has touched has the empty name. -/
def text : Phase → String
  | unset => ""
  | deploying => "CertSuiteDeploying"
  | deployError => "CertSuiteDeployError"
  | running => "CertSuiteRunning"
  | finished => "CertSuiteFinished"
  | error => "CertSuiteError"

def ofText? (s : String) : Option Phase :=
  if s = "" then some unset
  else if s = "CertSuiteDeploying" then some deploying
  else if s = "CertSuiteDeployError" then some deployError
  else if s = "CertSuiteRunning" then some running
  else if s = "CertSuiteFinished" then some finished
  else if s = "CertSuiteError" then some error
  else none

theorem ofText?_text (p : Phase) : ofText? p.text = some p := by cases p <;> rfl

def isTerminal : Phase → Bool
  | finished => true
  | error => true
  | _ => false

end Phase

/-- How far a run has come, and what came out of it. -/
structure RunStatus where
  phase : Phase := .unset
  /-- The pod that executes the run. -/
  podName : Option String := none
  report : Option Report := none
  deriving DecidableEq, Repr, Inhabited

/-! ## Runs -/

namespace Run

def group : String := "cnf-certifications.redhat.com"

def version : String := "v1alpha1"

def kindName : String := "CnfCertificationSuiteRun"

def plural : String := "cnfcertificationsuiteruns"

/-- The group and the version of the run resource. -/
def groupVersion : String := group ++ "/" ++ version

end Run

/-- A request for one execution of the suite. -/
structure Run where
  apiVersion : String := Run.groupVersion
  kind : String := Run.kindName
  metadata : ObjectMeta := {}
  spec : RunSpec := {}
  status : RunStatus := {}
  deriving DecidableEq, Repr, Inhabited

namespace Run

def key (r : Run) : ObjectKey := r.metadata.key

def ownerReference (r : Run) : OwnerReference :=
  ⟨r.apiVersion, r.kind, r.metadata.name, r.metadata.uid⟩

def recordedPod? (r : Run) : Option String :=
  match r.status.phase with
  | .deploying | .running => r.status.podName.filter (· ≠ "")
  | _ => none

end Run

end CertRuns
