import CertRuns.Number.Decimal
import CertRuns.Number.Power

/-!
# Names and paths of an execution

Names that the operator, the pod that executes a run and the harvester in that pod share.

* `podName n`, `podIndex? s` : the name of the `n`-th pod, and the number in such a name;
* containers, folders, files, volumes and environment variables of the pod.
-/

namespace CertRuns.Job

/-! ## Pod names -/

def podNameStem : String := "cnf-job-run"

def podName (n : UInt64) : String := podNameStem ++ "-" ++ Decimal.text n.toNat

/-- What follows `stem` in `s`, if `s` starts with it. -/
def rest? : List Char → List Char → Option (List Char)
  | [], s => some s
  | c :: stem, d :: s => if c = d then rest? stem s else none
  | _ :: _, [] => none

/-- The number in the name of a pod: 64 bits in digits, which one plus sign may lead. -/
def podIndex? (name : String) : Option UInt64 := do
  let digits ← rest? (podNameStem.toList ++ ['-']) name.toList
  (Decimal.unsigned? longBound digits).map UInt64.ofNat

/-! ## Containers -/

def sidecarContainer : String := "cnf-certsuite-sidecar"

def suiteContainer : String := "cnf-certsuite"

/-- The service account with the access to the cluster that the suite needs. -/
def serviceAccount : String := "cnf-certsuite-cluster-access"

/-! ## Folders, files and volumes -/

def configFolder : String := "/cnf-certsuite/config/suite"

def preflightFolder : String := "/cnf-certsuite/config/preflight"

def resultsFolder : String := "/cnf-certsuite/results"

def configFile : String := "/cnf-certsuite/config/suite/tnf_config.yaml"

def preflightFile : String := "/cnf-certsuite/config/preflight/preflight_dockerconfig.json"

def outputVolume : String := "cnf-certsuite-output"

def configVolume : String := "cnf-certsuite-config"

def preflightVolume : String := "cnf-certsuite-preflight-dockerconfig"

/-- The file in the results folder that lists all results. -/
def claimFileName : String := "claim.json"

/-! ## Environment of the harvester -/

def podNameVariable : String := "MY_POD_NAME"

def podNamespaceVariable : String := "MY_POD_NAMESPACE"

def resultsFolderVariable : String := "TNF_RESULTS_FOLDER"

def runNameVariable : String := "RUN_CR_NAME"

end CertRuns.Job
