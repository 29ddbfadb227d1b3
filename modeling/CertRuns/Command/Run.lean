import CertRuns.Command.Help
import CertRuns.Harvest.Settings
import CertRuns.Job.Build
import CertRuns.Json.Parser
import CertRuns.Json.Printer
import CertRuns.Object.PodJson
import CertRuns.Run.RunJson
import CertRuns.Server.Client

/-!
# Carrying out a command

A command either ends at once, with what it prints, or it goes on with the cluster.

* `CommandResult` : exit code, output and error of a command that has ended;
* `CommandError` : why a command fails; `renderPod` : the pod that a run would get;
* `Plan`, `Plan.ofArguments` : what a command line leads to;
* `Plan.offline` : what that comes to where no server can be reached.
-/

namespace CertRuns

structure CommandResult where
  exitCode : Nat
  output : String := ""
  /-- The line that tells about a failure. -/
  error : Option String := none
  deriving DecidableEq, Repr

inductive CommandError where
  | config (cause : ConfigError)
  | unreadableRun (path : String)
  | malformedRun (path : String)
  | missingContainer (cause : Job.MissingContainer)
  | noImage
  | noClient
  | incompleteEnvironment
  | noListener (address : String)
  | noHarvest
  deriving DecidableEq, Repr

def CommandError.message : CommandError → String
  | config cause => cause.message
  | unreadableRun path => "failed to read run manifest: " ++ path
  | malformedRun path => "failed to parse run manifest: " ++ path
  | missingContainer cause => cause.message
  | noImage =>
    "no sidecar image configured: set " ++ OperatorConfig.imageVariable ++
      " or controller.sidecar_image"
  | noClient => "failed to set up API server client"
  | incompleteEnvironment => "harvester environment incomplete"
  | noListener address => "failed to bind " ++ address
  | noHarvest => "harvest failed"

def CommandError.result (e : CommandError) : CommandResult where
  exitCode := 1
  error := some ("Error: " ++ e.message)

/-- What a command line leads to. -/
inductive Plan where
  | finished (result : CommandResult)
  | serve (config : OperatorConfig) (client : ApiClient)
  | harvest (config : OperatorConfig) (settings : HarvestSettings) (client : ApiClient)

/-! ## The commands -/

def renderPod (config : OperatorConfig) (run : Run) (podName : String) :
    Except Job.MissingContainer Pod :=
  Job.forRun run podName config.controller.sidecarImage config.controller.runnerImage

def Paths.files (paths : Paths) : Files := fun path =>
  match paths path with
  | .file content => some content
  | _ => none

/-- The configuration that is named, or the one that holds without a name. -/
def loadConfig (paths : Paths) (env : Environment) :
    Option String → Except CommandError OperatorConfig
  | none => .ok (.loadOrDefault paths.files env)
  | some path =>
    match OperatorConfig.load paths.files path with
    | .ok config => .ok (config.applyEnvironment env)
    | .error e => .error (.config e)

/-- The pod of a run in a file, as it is printed. -/
def renderFile (config : OperatorConfig) (paths : Paths) (path podName : String) :
    Except CommandError String :=
  match paths.files.text? path with
  | none => .error (.unreadableRun path)
  | some text =>
    match (Json.parseText text).bind Run.ofJson? with
    | none => .error (.malformedRun path)
    | some run =>
      match renderPod config run podName with
      | .error e => .error (.missingContainer e)
      | .ok pod => .ok (pod.toJson.pretty ++ "\n")

def clientFor (config : OperatorConfig) (paths : Paths) (env : Environment) :
    Except CommandError ApiClient :=
  match ApiClient.ofConfig config.cluster env paths with
  | .ok client => .ok client
  | .error _ => .error .noClient

/-- The configuration with what the options of the operator say. -/
def OperatorConfig.withOptions (config : OperatorConfig) (listen ns : Option String) :
    OperatorConfig :=
  { config with
    http := { config.http with listenAddress := listen.getD config.http.listenAddress }
    controller := { config.controller with ns := ns.getD config.controller.ns } }

def Command.plan (config : OperatorConfig) (paths : Paths) (env : Environment) :
    Command → Except CommandError Plan
  | serve listen ns => do
    let config := config.withOptions listen ns
    if config.controller.sidecarImage = "" then throw .noImage
    let client ← clientFor config paths env
    return .serve config client
  | harvest =>
    match HarvestSettings.ofEnvironment env with
    | .error _ => .error .incompleteEnvironment
    | .ok settings => do
      let client ← clientFor config paths env
      return .harvest config settings client
  | renderPod run podName => do
    let output ← renderFile config paths run podName
    return .finished { exitCode := 0, output }

def Plan.ofArguments (paths : Paths) (env : Environment) (args : List String) : Plan :=
  let named := env OperatorConfig.pathVariable
  match Invocation.ofArguments named args with
  | .misuse => .finished { exitCode := 2 }
  | .version => .finished { exitCode := 0, output := versionLine ++ "\n" }
  | .help topic => .finished { exitCode := 0, output := topic.page (named.getD "") }
  | .run config command =>
    match loadConfig paths env config >>= fun config => command.plan config paths env with
    | .ok plan => plan
    | .error e => .finished e.result

def Plan.offline : Plan → CommandResult
  | finished result => result
  | serve config _ => (CommandError.noListener config.http.listenAddress).result
  | harvest _ _ _ => CommandError.noHarvest.result

end CertRuns
