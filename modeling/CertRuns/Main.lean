import CertRuns.Command.Run

/-!
# The program

The program looks up the environment variables and files that a command may need, and prints what
the command comes to. It has no network of its own: a command that needs the server of a cluster
fails as it does where no server can be reached.
-/

namespace CertRuns.Program

def variableNames : List String :=
  [OperatorConfig.pathVariable, OperatorConfig.imageVariable, "KUBERNETES_SERVICE_HOST",
    "KUBERNETES_SERVICE_PORT", Job.resultsFolderVariable, Job.podNamespaceVariable,
    Job.runNameVariable]

/-- What stands at a path. A path that exists and cannot be read counts as a folder. -/
def look (path : String) : IO FileState := do
  try
    return .file (← IO.FS.readBinFile path)
  catch e =>
    match e with
    | .noFileOrDirectory .. => return .missing
    | _ => return .directory

def lookAll (paths : List String) : IO (List (String × FileState)) :=
  paths.mapM fun path => return (path, ← look path)

/-- What was found at paths; nothing stands anywhere else. -/
def pathsOf (found : List (String × FileState)) : Paths := fun path =>
  (found.lookup path).getD .missing

def environment : IO Environment := do
  let values ← variableNames.filterMapM fun name => return (← IO.getEnv name).map (name, ·)
  return fun name => values.lookup name

/-- The files that a command line names, and the configuration of the system. -/
def namedFiles : Invocation → List String
  | .run config (.renderPod run _) => run :: OperatorConfig.systemPath :: config.toList
  | .run config _ => OperatorConfig.systemPath :: config.toList
  | _ => []

def clientFiles (config : OperatorConfig) : List String :=
  [config.cluster.tokenPath, config.cluster.caPath]

/-- Everything that a command line may need to read. -/
def gather (env : Environment) (args : List String) : IO Paths := do
  let invocation := Invocation.ofArguments (env OperatorConfig.pathVariable) args
  let found ← lookAll (namedFiles invocation)
  match invocation with
  | .run config _ =>
    match loadConfig (pathsOf found) env config with
    | .ok c => return pathsOf (found ++ (← lookAll (clientFiles c)))
    | .error _ => return pathsOf found
  | _ => return pathsOf found

def report (r : CommandResult) : IO UInt32 := do
  IO.print r.output
  match r.error with
  | some line => IO.eprintln line
  | none => pure ()
  return r.exitCode.toUInt32

end CertRuns.Program

open CertRuns in
def main (args : List String) : IO UInt32 := do
  let env ← Program.environment
  let paths ← Program.gather env args
  Program.report (Plan.ofArguments paths env args).offline
