import CertRuns.Job.Names
import CertRuns.Object.Key
import CertRuns.Time.Duration

/-!
# What a harvester is told

The pod's template tells the harvester through environment variables where the results appear and
which run they belong to.

* `pathIn` : the path of a file in a folder;
* `HarvestSettings`, `HarvestSettings.claimPath` : folder, run and pauses;
* `HarvestSettings.ofEnvironment` : the settings from variables, or the first one that is missing.
-/

namespace CertRuns

/-- The path of a file in a folder; the folder's path may end in a slash. -/
def pathIn (folder file : String) : String :=
  if folder = "" ∨ folder.endsWith "/" then folder ++ file else folder ++ "/" ++ file

structure HarvestSettings where
  resultsFolder : String
  /-- The run that the report belongs to. -/
  run : ObjectKey
  /-- The pause between two looks for the file. -/
  pollInterval : Duration := .ofSeconds 5
  /-- The pause after the file has appeared, in which it may still be written. -/
  settleDelay : Duration := .ofSeconds 5
  deriving DecidableEq, Repr

def HarvestSettings.claimPath (s : HarvestSettings) : String :=
  pathIn s.resultsFolder Job.claimFileName

/-- A variable that a harvester needs is not set. -/
structure MissingVariable where
  name : String
  deriving DecidableEq, Repr

def MissingVariable.message (e : MissingVariable) : String :=
  "environment variable " ++ e.name ++ " is not set"

/-- The value of a variable that must be set to something. -/
def requireVariable (lookup : String → Option String) (name : String) :
    Except MissingVariable String :=
  match lookup name with
  | some value => if value = "" then .error ⟨name⟩ else .ok value
  | none => .error ⟨name⟩

def HarvestSettings.ofEnvironment (lookup : String → Option String) :
    Except MissingVariable HarvestSettings := do
  let resultsFolder ← requireVariable lookup Job.resultsFolderVariable
  let ns ← requireVariable lookup Job.podNamespaceVariable
  let name ← requireVariable lookup Job.runNameVariable
  return { resultsFolder, run := ⟨ns, name⟩ }

end CertRuns
