import CertRuns.Command.Arguments
import CertRuns.Http.Page

/-!
# Help and version

* `Topic.page` : the page of help on the program and on each command;
* `versionLine` : the line that tells the version.
-/

namespace CertRuns

def programName : String := "certsuite-operator"

def versionLine : String := programName ++ " " ++ operatorVersion

namespace Topic

def summary : Topic → String
  | program => "Runs the CNF certification suite for CnfCertificationSuiteRun objects"
  | serve => "Start the controller, the run watcher and the probe endpoints"
  | harvest => "Wait for the suite's claim file and store its report (sidecar mode)"
  | renderPod => "Print the execution unit that would be created for a run manifest"

def usage : Topic → String
  | program => programName ++ " [OPTIONS] <COMMAND>"
  | serve => programName ++ " serve [OPTIONS]"
  | harvest => programName ++ " harvest [OPTIONS]"
  | renderPod => programName ++ " render-pod [OPTIONS] --run <RUN>"

/-- The options with their descriptions; `config` is what the environment names. -/
def options (config : String) (t : Topic) : List (String × String) :=
  let common := ("    --config <CONFIG>",
    "Config file (TOML) [env: CERTSUITE_OPERATOR_CONFIG=" ++ config ++ "]")
  let help := ("-h, --help", "Print help")
  match t with
  | program => [common, help, ("-V, --version", "Print version")]
  | serve =>
    [common, ("    --listen <LISTEN>", "Listen address for the HTTP endpoints"),
      ("    --namespace <NAMESPACE>", "Namespace to watch for runs"), help]
  | harvest => [common, help]
  | renderPod =>
    [common, ("    --run <RUN>", "Run manifest (JSON)"),
      ("    --pod-name <POD_NAME>", "Pod name to use [default: cnf-job-run-1]"), help]

def commands : List (String × String) :=
  [("serve", summary serve), ("harvest", summary harvest), ("render-pod", summary renderPod),
    ("help", "Print this message or the help of the given subcommand(s)")]

/-- Lines of names and descriptions, the descriptions below each other. -/
def columns (rows : List (String × String)) : List String :=
  let width := rows.foldl (fun w r => max w r.1.length) 0
  rows.map fun r =>
    "  " ++ r.1 ++ String.ofList (List.replicate (width - r.1.length + 2) ' ') ++ r.2

def page (config : String) (t : Topic) : String :=
  let commandLines := if t = program then ["Commands:"] ++ columns commands ++ [""] else []
  "\n".intercalate ([t.summary, "", "Usage: " ++ t.usage, ""] ++ commandLines ++
    ["Options:"] ++ columns (t.options config)) ++ "\n"

end Topic

end CertRuns
