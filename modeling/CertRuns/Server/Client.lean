import CertRuns.Cluster.Request
import CertRuns.Config.Load
import CertRuns.Control.Wait
import CertRuns.Server.Certificate

/-!
# The client of a cluster's server

* `ApiClient` : the address of the server and the token that it is shown;
* `inClusterAddress` : the address that every pod is told;
* `ApiClient.ofConfig` : the client of a configuration, or why there is none. The address is
  looked at first, then the certificates, then the token.
-/

namespace CertRuns

abbrev Paths := String → FileState

/-- The text of a file, if there is one. -/
def FileState.text? : FileState → Option String
  | .file content => Text.text? content
  | _ => none

/-- The client of a cluster's server. -/
structure ApiClient where
  address : String
  token : Option String
  deriving DecidableEq, Repr

/-- The address that every pod is told. The colons of some hosts need brackets around them. -/
def inClusterAddress (env : Environment) : Except ClusterError String :=
  match env "KUBERNETES_SERVICE_HOST" with
  | none =>
    .error (.config "no api_server configured and KUBERNETES_SERVICE_HOST is not set")
  | some host =>
    let port := (env "KUBERNETES_SERVICE_PORT").getD "443"
    let host := if host.contains ':' then "[" ++ host ++ "]" else host
    .ok ("https://" ++ host ++ ":" ++ port)

def trimSlashes (s : String) : String :=
  String.ofList (s.toList.reverse.dropWhile (· == '/')).reverse

/-- Check the file with the certificates that the server may show. -/
def checkCertificates (path : String) : FileState → Except ClusterError Unit
  | .missing => .ok ()
  | .directory => .error (.config ("failed to read CA bundle " ++ path))
  | .file content =>
    if ((Text.text? content).map Certificate.holdsCertificate).getD false then .ok ()
    else .error (.transport "invalid certificate")

/-- The token in a file, without blanks around it. -/
def readToken (path : String) : FileState → Except ClusterError (Option String)
  | .missing => .ok none
  | state =>
    match state.text? with
    | some s => .ok (some (Text.trim s))
    | none => .error (.config ("failed to read token " ++ path))

def ApiClient.ofConfig (config : ClusterConfig) (env : Environment) (paths : Paths) :
    Except ClusterError ApiClient := do
  let address ← match config.apiServer with
    | some url => .ok (trimSlashes url)
    | none => inClusterAddress env
  checkCertificates config.caPath (paths config.caPath)
  let token ← readToken config.tokenPath (paths config.tokenPath)
  return { address, token }

end CertRuns
