import CertRuns.Table

/-!
# The report of a run

* `Verdict` : the outcome of a run; `Verdict.ofSummary` derives it from counts;
* `CaseState`, `CaseResult` : the outcome of one test case and what is told about it;
* `Summary` : how many cases ended in which state;
* `Inventory` : the workload that the suite was pointed at;
* `Report` : all of these with the versions of cluster and suite.
-/

namespace CertRuns

/-! ## Counts and verdict -/

/-- How many cases ended in which state. -/
structure Summary where
  total : Nat := 0
  passed : Nat := 0
  skipped : Nat := 0
  failed : Nat := 0
  errored : Nat := 0
  deriving DecidableEq, Repr, Inhabited

inductive Verdict where
  | pass
  | skip
  | fail
  | error
  deriving DecidableEq, Repr, Inhabited

namespace Verdict

def text : Verdict → String
  | pass => "pass"
  | skip => "skip"
  | fail => "fail"
  | error => "error"

def ofText? (s : String) : Option Verdict :=
  if s = "pass" then some pass
  else if s = "skip" then some skip
  else if s = "fail" then some fail
  else if s = "error" then some error
  else none

theorem ofText?_text (v : Verdict) : ofText? v.text = some v := by cases v <;> rfl

/-- Errors outweigh failures, and failures outweigh everything else; a run with nothing but skipped
cases is skipped. -/
def ofSummary (s : Summary) : Verdict :=
  if 1 ≤ s.errored then error
  else if 1 ≤ s.failed then fail
  else if s.skipped = s.total then skip
  else pass

end Verdict

/-! ## Test cases -/

inductive CaseState where
  | passed
  | skipped
  | failed
  | error
  deriving DecidableEq, Repr, Inhabited

namespace CaseState

def text : CaseState → String
  | passed => "passed"
  | skipped => "skipped"
  | failed => "failed"
  | error => "error"

def ofText? (s : String) : Option CaseState :=
  if s = "passed" then some passed
  else if s = "skipped" then some skipped
  else if s = "failed" then some failed
  else if s = "error" then some error
  else none

theorem ofText?_text (s : CaseState) : ofText? s.text = some s := by cases s <;> rfl

end CaseState

/-- One object that a test case looked at, as names and values of its fields. -/
abbrev TargetObject := Table String String

/-- The objects that a test case looked at. -/
structure CaseTargets where
  compliant : List TargetObject := []
  nonCompliant : List TargetObject := []
  deriving DecidableEq, Repr, Inhabited

/-- What is told about one test case. -/
structure CaseResult where
  name : String
  state : CaseState
  reason : String := ""
  logs : String := ""
  targets : Option CaseTargets := none
  deriving DecidableEq, Repr, Inhabited

/-! ## Inventory -/

/-- A pod that the suite was pointed at. -/
structure InventoryPod where
  name : String := ""
  ns : String := ""
  containers : List String := []
  deriving DecidableEq, Repr, Inhabited

/-- Another object that the suite was pointed at. -/
structure InventoryObject where
  name : String := ""
  ns : String := ""
  deriving DecidableEq, Repr, Inhabited

/-- The workload that the suite was pointed at. -/
structure Inventory where
  namespaces : List String := []
  nodes : List String := []
  pods : List InventoryPod := []
  deployments : List InventoryObject := []
  statefulSets : List InventoryObject := []
  csvs : List InventoryObject := []
  crds : List String := []
  services : List InventoryObject := []
  helmChartReleases : List InventoryObject := []
  deriving DecidableEq, Repr, Inhabited

/-! ## Report -/

structure Report where
  verdict : Verdict
  clusterVersion : String := ""
  suiteVersion : String := ""
  inventory : Inventory := {}
  summary : Summary
  results : List CaseResult := []
  deriving DecidableEq, Repr, Inhabited

end CertRuns
