import CertRuns.Report.CheckDetails
import CertRuns.Report.ClaimFile
import CertRuns.Run.RunJson
import CertRuns.Text.Blank

/-!
# From results to a report

* `ReportOptions` : how much a report tells, as the run asks for it;
* `caseState`, `caseTargets?`, `caseResult` : what a report tells about one test case;
* `summarize` : all cases in the order of their names, and how many ended in which state;
* `inventory` : the workload that the suite was pointed at;
* `synthesize` : the report.
-/

namespace CertRuns

structure ReportOptions where
  /-- The captured output of every case, not only of failed ones. -/
  allLogs : Bool := false
  /-- The objects that passed cases looked at, not only failed ones. -/
  compliantTargets : Bool := false
  deriving DecidableEq, Repr

def RunSpec.reportOptions (s : RunSpec) : ReportOptions :=
  ⟨s.showAllResultsLogs, s.showCompliantResourcesAlways⟩

/-! ## One test case -/

def caseState (record : CaseRecord) : CaseState :=
  (CaseState.ofText? record.state).getD .error

/-- The objects that a case looked at, if it lists any that can be read. -/
def caseTargets? (record : CaseRecord) : Option CaseTargets :=
  if Text.allBlank record.checkDetails then none
  else (decodeCheckDetails record.checkDetails).toOption

/-- Does a report tell which objects a case looked at? -/
def wantsTargets (options : ReportOptions) : CaseState → Bool
  | .failed => true
  | .passed => options.compliantTargets
  | _ => false

def caseResult (options : ReportOptions) (name : String) (record : CaseRecord) : CaseResult :=
  let state := caseState record
  { name
    state
    reason := match state with
      | .skipped => record.skipReason
      | .failed => record.failureReason
      | _ => ""
    logs := if state = .failed ∨ options.allLogs then record.capturedOutput else ""
    targets := if wantsTargets options state then caseTargets? record else none }

/-! ## All test cases -/

def Summary.count (s : Summary) : CaseState → Summary
  | .passed => { s with total := s.total + 1, passed := s.passed + 1 }
  | .skipped => { s with total := s.total + 1, skipped := s.skipped + 1 }
  | .failed => { s with total := s.total + 1, failed := s.failed + 1 }
  | .error => { s with total := s.total + 1, errored := s.errored + 1 }

/-- The counts of all cases, and what is told about each, in the order of their names. -/
def summarize (results : Table String CaseRecord) (options : ReportOptions) :
    Summary × List CaseResult :=
  (results.entries.foldl (fun s e => s.count (caseState e.2)) {},
    results.entries.map fun e => caseResult options e.1 e.2)

/-! ## Report -/

def ClaimMeta.toInventory (m : ClaimMeta) : InventoryObject := ⟨m.name, m.ns⟩

def ClaimPod.toInventory (p : ClaimPod) : InventoryPod :=
  ⟨p.metadata.name, p.metadata.ns, p.spec.containers.map (·.name)⟩

def inventory (claim : Claim) : Inventory :=
  let c := claim.configurations
  let objects (l : List ClaimObject) := l.map (·.metadata.toInventory)
  { namespaces := c.namespaces
    nodes := claim.nodes.summary.keys
    pods := c.pods.map ClaimPod.toInventory
    deployments := objects c.deployments
    statefulSets := objects c.statefulSets
    csvs := c.csvs.map ClaimMeta.toInventory
    crds := c.crds.map (·.metadata.name)
    services := objects c.services
    helmChartReleases := objects c.helmChartReleases }

def synthesize (file : ClaimFile) (options : ReportOptions) : Report :=
  let (summary, results) := summarize file.claim.results options
  { verdict := .ofSummary summary
    clusterVersion := file.claim.versions.cluster
    suiteVersion := file.claim.versions.suite
    inventory := inventory file.claim
    summary
    results }

end CertRuns
