import CertRuns.Json.Decode
import CertRuns.Run.Report

/-!
# Reports as JSON

Reading and writing a report under the names of the run resource. The verdict and the counts are
needed in reading, everything else may be missing. Each type has `toJson` and `ofJson?`.
-/

namespace CertRuns

open Json (text? natural? list? nullable? table?)

/-! ## Counts and verdict -/

def Verdict.toJson (v : Verdict) : Json := .ofText v.text

def Verdict.ofJson? (j : Json) : Option Verdict := j.choice?.bind Verdict.ofText?

def Summary.toJson (s : Summary) : Json :=
  .record [("total", .ofNat s.total), ("passed", .ofNat s.passed),
    ("skipped", .ofNat s.skipped), ("failed", .ofNat s.failed),
    ("errored", .ofNat s.errored)]

def Summary.ofJson? (j : Json) : Option Summary := do
  let m ← j.members? ["total", "passed", "skipped", "failed", "errored"]
  return {
    total := ← m.required "total" natural?
    passed := ← m.required "passed" natural?
    skipped := ← m.required "skipped" natural?
    failed := ← m.required "failed" natural?
    errored := ← m.required "errored" natural? }

/-! ## Test cases -/

def CaseState.toJson (s : CaseState) : Json := .ofText s.text

def CaseState.ofJson? (j : Json) : Option CaseState := j.choice?.bind CaseState.ofText?

def TargetObject.toJson (t : TargetObject) : Json := Json.ofTable Json.ofText t

def TargetObject.ofJson? (j : Json) : Option TargetObject := table? text? j

def CaseTargets.toJson (t : CaseTargets) : Json :=
  .record [("compliant", .ofList TargetObject.toJson t.compliant),
    ("nonCompliant", .ofList TargetObject.toJson t.nonCompliant)]

def CaseTargets.ofJson? (j : Json) : Option CaseTargets := do
  let m ← j.members? ["compliant", "nonCompliant"]
  return {
    compliant := ← m.optional "compliant" (list? TargetObject.ofJson?) []
    nonCompliant := ← m.optional "nonCompliant" (list? TargetObject.ofJson?) [] }

def CaseResult.toJson (r : CaseResult) : Json :=
  .record (Json.field "testCaseName" (.ofText r.name) ++ Json.field "result" r.state.toJson ++
    Json.textField "reason" r.reason ++ Json.textField "logs" r.logs ++
    Json.optionField "targetResources" CaseTargets.toJson r.targets)

def CaseResult.ofJson? (j : Json) : Option CaseResult := do
  let m ← j.members? ["testCaseName", "result", "reason", "logs", "targetResources"]
  return {
    name := ← m.required "testCaseName" text?
    state := ← m.required "result" CaseState.ofJson?
    reason := ← m.optional "reason" text? ""
    logs := ← m.optional "logs" text? ""
    targets := ← m.optional "targetResources" (nullable? CaseTargets.ofJson?) none }

/-! ## Inventory -/

def InventoryPod.toJson (p : InventoryPod) : Json :=
  .record (Json.textField "name" p.name ++ Json.textField "namespace" p.ns ++
    Json.listField "containers" Json.ofText p.containers)

def InventoryPod.ofJson? (j : Json) : Option InventoryPod := do
  let m ← j.members? ["name", "namespace", "containers"]
  return {
    name := ← m.optional "name" text? ""
    ns := ← m.optional "namespace" text? ""
    containers := ← m.optional "containers" (list? text?) [] }

def InventoryObject.toJson (o : InventoryObject) : Json :=
  .record (Json.textField "name" o.name ++ Json.textField "namespace" o.ns)

def InventoryObject.ofJson? (j : Json) : Option InventoryObject := do
  let m ← j.members? ["name", "namespace"]
  return {
    name := ← m.optional "name" text? ""
    ns := ← m.optional "namespace" text? "" }

def Inventory.toJson (i : Inventory) : Json :=
  .record (Json.listField "namespaces" Json.ofText i.namespaces ++
    Json.listField "nodes" Json.ofText i.nodes ++
    Json.listField "pods" InventoryPod.toJson i.pods ++
    Json.listField "deployments" InventoryObject.toJson i.deployments ++
    Json.listField "statefulSets" InventoryObject.toJson i.statefulSets ++
    Json.listField "csvs" InventoryObject.toJson i.csvs ++
    Json.listField "crds" Json.ofText i.crds ++
    Json.listField "services" InventoryObject.toJson i.services ++
    Json.listField "helmChartReleases" InventoryObject.toJson i.helmChartReleases)

def Inventory.ofJson? (j : Json) : Option Inventory := do
  let m ← j.members? ["namespaces", "nodes", "pods", "deployments", "statefulSets", "csvs",
    "crds", "services", "helmChartReleases"]
  return {
    namespaces := ← m.optional "namespaces" (list? text?) []
    nodes := ← m.optional "nodes" (list? text?) []
    pods := ← m.optional "pods" (list? InventoryPod.ofJson?) []
    deployments := ← m.optional "deployments" (list? InventoryObject.ofJson?) []
    statefulSets := ← m.optional "statefulSets" (list? InventoryObject.ofJson?) []
    csvs := ← m.optional "csvs" (list? InventoryObject.ofJson?) []
    crds := ← m.optional "crds" (list? text?) []
    services := ← m.optional "services" (list? InventoryObject.ofJson?) []
    helmChartReleases := ← m.optional "helmChartReleases"
      (list? InventoryObject.ofJson?) [] }

/-! ## Report -/

def Report.toJson (r : Report) : Json :=
  .record [("verdict", r.verdict.toJson), ("ocpVersion", .ofText r.clusterVersion),
    ("cnfCertSuiteVersion", .ofText r.suiteVersion), ("cnfTargets", r.inventory.toJson),
    ("summary", r.summary.toJson), ("results", .ofList CaseResult.toJson r.results)]

def Report.ofJson? (j : Json) : Option Report := do
  let m ← j.members? ["verdict", "ocpVersion", "cnfCertSuiteVersion", "cnfTargets", "summary",
    "results"]
  return {
    verdict := ← m.required "verdict" Verdict.ofJson?
    clusterVersion := ← m.optional "ocpVersion" text? ""
    suiteVersion := ← m.optional "cnfCertSuiteVersion" text? ""
    inventory := ← m.optional "cnfTargets" Inventory.ofJson? {}
    summary := ← m.required "summary" Summary.ofJson?
    results := ← m.optional "results" (list? CaseResult.ofJson?) [] }

end CertRuns
