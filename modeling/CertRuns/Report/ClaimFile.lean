import CertRuns.Json.Decode

/-!
# The claim file of the suite

The suite leaves one document with all its results. Only the parts that a report needs have a
place here; everything else in the document is skipped, and every part but the outermost may be
missing.

* `CaseRecord` : the raw record of one test case;
* `Versions`, `Configurations`, `Nodes` : what the suite says about itself and its target;
* `Claim`, `ClaimFile` : the document; `ClaimFile.ofBytes?` reads it.
-/

namespace CertRuns

open Json (text? list? table? integer? free?)

/-! ## Test cases -/

/-- The names of a test case. -/
structure CaseId where
  id : String := ""
  suite : String := ""
  tags : String := ""

/-- The raw record of one test case. -/
structure CaseRecord where
  state : String := ""
  capturedOutput : String := ""
  skipReason : String := ""
  failureReason : String := ""
  /-- The objects that the case looked at, as a document in a text. -/
  checkDetails : String := ""
  startTime : String := ""
  endTime : String := ""
  duration : Int := 0
  id : CaseId := {}
  classification : Table String String := .empty

/-! ## Target of the suite -/

structure Versions where
  claimFormat : String := ""
  cluster : String := ""
  kubernetes : String := ""
  suite : String := ""

/-- The name of an object under test. -/
structure ClaimMeta where
  name : String := ""
  ns : String := ""

structure ClaimObject where
  metadata : ClaimMeta := {}

/-- A container of a pod under test. -/
structure ClaimContainer where
  name : String := ""

/-- The containers of a pod under test. -/
structure ClaimPodSpec where
  containers : List ClaimContainer := []

structure ClaimPod where
  metadata : ClaimMeta := {}
  spec : ClaimPodSpec := {}

/-- What the suite was pointed at. -/
structure Configurations where
  namespaces : List String := []
  pods : List ClaimPod := []
  deployments : List ClaimObject := []
  statefulSets : List ClaimObject := []
  csvs : List ClaimMeta := []
  crds : List ClaimObject := []
  services : List ClaimObject := []
  helmChartReleases : List ClaimObject := []

/-- The nodes of the cluster, each with a summary that nobody reads. -/
structure Nodes where
  summary : Table String Json := .empty

/-! ## Document -/

/-- All results with what they were obtained from. -/
structure Claim where
  results : Table String CaseRecord := .empty
  versions : Versions := {}
  configurations : Configurations := {}
  nodes : Nodes := {}

/-- The document that the suite leaves. -/
structure ClaimFile where
  claim : Claim

/-! ## Reading -/

/-- The names of a test case that a record gives. -/
def CaseId.ofJson? (j : Json) : Option CaseId := do
  let m ← j.members? ["id", "suite", "tags"]
  return {
    id := ← m.optional "id" text? ""
    suite := ← m.optional "suite" text? ""
    tags := ← m.optional "tags" text? "" }

/-- The record of a test case that a record gives. -/
def CaseRecord.ofJson? (j : Json) : Option CaseRecord := do
  let m ← j.members? ["state", "capturedTestOutput", "skipReason", "failureReason",
    "checkDetails", "startTime", "endTime", "duration", "testID",
    "categoryClassification"]
  return {
    state := ← m.optional "state" text? ""
    capturedOutput := ← m.optional "capturedTestOutput" text? ""
    skipReason := ← m.optional "skipReason" text? ""
    failureReason := ← m.optional "failureReason" text? ""
    checkDetails := ← m.optional "checkDetails" text? ""
    startTime := ← m.optional "startTime" text? ""
    endTime := ← m.optional "endTime" text? ""
    duration := ← m.optional "duration" (integer? (-9223372036854775808) 9223372036854775808) 0
    id := ← m.optional "testID" CaseId.ofJson? {}
    classification := ← m.optional "categoryClassification" (table? text?) .empty }

def Versions.canonical (name : String) : String := if name = "tnf" then "certSuite" else name

def Versions.ofJson? (j : Json) : Option Versions := do
  let m ← j.members? ["claimFormat", "ocp", "k8s", "certSuite"] canonical
  return {
    claimFormat := ← m.optional "claimFormat" text? ""
    cluster := ← m.optional "ocp" text? ""
    kubernetes := ← m.optional "k8s" text? ""
    suite := ← m.optional "certSuite" text? "" }

/-- The name of an object under test that a record gives. -/
def ClaimMeta.ofJson? (j : Json) : Option ClaimMeta := do
  let m ← j.members? ["name", "namespace"]
  return {
    name := ← m.optional "name" text? ""
    ns := ← m.optional "namespace" text? "" }

def ClaimObject.ofJson? (j : Json) : Option ClaimObject := do
  let m ← j.members? ["metadata"]
  return { metadata := ← m.optional "metadata" ClaimMeta.ofJson? {} }

/-- The container of a pod under test that a record gives. -/
def ClaimContainer.ofJson? (j : Json) : Option ClaimContainer := do
  let m ← j.members? ["name"]
  return { name := ← m.optional "name" text? "" }

/-- The containers of a pod under test that a record gives. -/
def ClaimPodSpec.ofJson? (j : Json) : Option ClaimPodSpec := do
  let m ← j.members? ["containers"]
  return { containers := ← m.optional "containers" (list? ClaimContainer.ofJson?) [] }

def ClaimPod.ofJson? (j : Json) : Option ClaimPod := do
  let m ← j.members? ["metadata", "spec"]
  return {
    metadata := ← m.optional "metadata" ClaimMeta.ofJson? {}
    spec := ← m.optional "spec" ClaimPodSpec.ofJson? {} }

def Configurations.canonical (name : String) : String :=
  if name = "testNamespaces" then "namespaces" else name

/-- What the suite was pointed at, as a record gives it. -/
def Configurations.ofJson? (j : Json) : Option Configurations := do
  let m ← j.members? ["namespaces", "pods", "deployments", "statefulSets", "csvs", "crds",
    "services", "helmChartReleases"] canonical
  return {
    namespaces := ← m.optional "namespaces" (list? text?) []
    pods := ← m.optional "pods" (list? ClaimPod.ofJson?) []
    deployments := ← m.optional "deployments" (list? ClaimObject.ofJson?) []
    statefulSets := ← m.optional "statefulSets" (list? ClaimObject.ofJson?) []
    csvs := ← m.optional "csvs" (list? ClaimMeta.ofJson?) []
    crds := ← m.optional "crds" (list? ClaimObject.ofJson?) []
    services := ← m.optional "services" (list? ClaimObject.ofJson?) []
    helmChartReleases := ← m.optional "helmChartReleases" (list? ClaimObject.ofJson?) [] }

/-- How deep a node's summary may nest: a document has at most 127 levels, and the summaries
stand below the fourth. -/
def Nodes.summaryDepth : Nat := 123

def Nodes.ofJson? (j : Json) : Option Nodes := do
  let m ← j.members? ["nodeSummary"]
  return { summary := ← m.optional "nodeSummary" (table? (free? summaryDepth)) .empty }

def Claim.ofJson? (j : Json) : Option Claim := do
  let m ← j.members? ["results", "versions", "configurations", "nodes"]
  return {
    results := ← m.optional "results" (table? CaseRecord.ofJson?) .empty
    versions := ← m.optional "versions" Versions.ofJson? {}
    configurations := ← m.optional "configurations" Configurations.ofJson? {}
    nodes := ← m.optional "nodes" Nodes.ofJson? {} }

/-- The document that a record gives; the claim itself is needed. -/
def ClaimFile.ofJson? (j : Json) : Option ClaimFile := do
  let m ← j.members? ["claim"]
  return { claim := ← m.required "claim" Claim.ofJson? }

def ClaimFile.ofBytes? (b : ByteArray) : Option ClaimFile := do
  let j ← Json.parseBytes b
  ClaimFile.ofJson? j

end CertRuns
