import CertRuns.Run.Basic
import CertRuns.Run.ReportJson

/-!
# Runs as JSON

Reading and writing a run under the names of the run resource. The parts of a run's request are
always written except for the optional secret. Each type has `toJson` and `ofJson?`.
-/

namespace CertRuns

open Json (text? bool? nullable?)

def RunSpec.toJson (s : RunSpec) : Json :=
  .record (Json.field "labelsFilter" (.ofText s.labelsFilter) ++
    Json.field "logLevel" (.ofText s.logLevel) ++ Json.field "timeout" (.ofText s.timeout) ++
    Json.field "configMapName" (.ofText s.configMapName) ++
    Json.optionField "preflightSecretName" Json.ofText s.preflightSecretName ++
    Json.field "enableDataCollection" (.bool s.enableDataCollection) ++
    Json.field "showAllResultsLogs" (.bool s.showAllResultsLogs) ++
    Json.field "showCompliantResourcesAlways" (.bool s.showCompliantResourcesAlways))

def RunSpec.ofJson? (j : Json) : Option RunSpec := do
  let m ← j.members? ["labelsFilter", "logLevel", "timeout", "configMapName",
    "preflightSecretName", "enableDataCollection", "showAllResultsLogs",
    "showCompliantResourcesAlways"]
  return {
    labelsFilter := ← m.optional "labelsFilter" text? ""
    logLevel := ← m.optional "logLevel" text? ""
    timeout := ← m.optional "timeout" text? ""
    configMapName := ← m.optional "configMapName" text? ""
    preflightSecretName := ← m.optional "preflightSecretName" (nullable? text?) none
    enableDataCollection := ← m.optional "enableDataCollection" bool? false
    showAllResultsLogs := ← m.optional "showAllResultsLogs" bool? false
    showCompliantResourcesAlways := ← m.optional "showCompliantResourcesAlways" bool? false }

def Phase.toJson (p : Phase) : Json := .ofText p.text

def Phase.ofJson? (j : Json) : Option Phase := j.choice?.bind Phase.ofText?

def RunStatus.toJson (s : RunStatus) : Json :=
  .record (Json.field "phase" s.phase.toJson ++
    Json.optionField "cnfCertSuitePodName" Json.ofText s.podName ++
    Json.optionField "report" Report.toJson s.report)

def RunStatus.ofJson? (j : Json) : Option RunStatus := do
  let m ← j.members? ["phase", "cnfCertSuitePodName", "report"]
  return {
    phase := ← m.optional "phase" Phase.ofJson? .unset
    podName := ← m.optional "cnfCertSuitePodName" (nullable? text?) none
    report := ← m.optional "report" (nullable? Report.ofJson?) none }

def Run.toJson (r : Run) : Json :=
  .record [("apiVersion", .ofText r.apiVersion), ("kind", .ofText r.kind),
    ("metadata", r.metadata.toJson), ("spec", r.spec.toJson), ("status", r.status.toJson)]

def Run.ofJson? (j : Json) : Option Run := do
  let m ← j.members? ["apiVersion", "kind", "metadata", "spec", "status"]
  return {
    apiVersion := ← m.optional "apiVersion" text? Run.groupVersion
    kind := ← m.optional "kind" text? Run.kindName
    metadata := ← m.optional "metadata" ObjectMeta.ofJson? {}
    spec := ← m.optional "spec" RunSpec.ofJson? {}
    status := ← m.optional "status" RunStatus.ofJson? {} }

end CertRuns
