import CertRuns.Control.Backoff
import CertRuns.Control.Controller

/-!
# The configuration of the operator

* `ControllerConfig`, `RetryConfig`, `ClusterConfig`, `HttpConfig`, `LoggingConfig` : the sections;
* `OperatorConfig` : all of them, with a value for everything that is not configured;
* `ControllerConfig.settings`, `RetryConfig.policy` : what the parts of the operator work with.
-/

namespace CertRuns

/-- Which runs the operator watches, and how. -/
structure ControllerConfig where
  /-- The namespace of the runs and of their pods. -/
  ns : String := "cnf-certsuite-operator"
  /-- The image of the harvester. -/
  sidecarImage : String := ""
  /-- The image of the suite. -/
  runnerImage : String := "quay.io/testnetworkfunction/cnf-certification-test:unstable"
  /-- The seconds between two looks at a pod. -/
  checkSeconds : Nat := 5
  /-- The seconds that a run may take if it says nothing about it. -/
  timeoutSeconds : Nat := 3600
  /-- The seconds between two listings of the runs. -/
  resyncSeconds : Nat := 5
  deriving DecidableEq, Repr

/-- How writes that conflict are tried again. -/
structure RetryConfig where
  /-- All attempts, the first included. -/
  steps : Nat := 5
  initialDelayMillis : Nat := 10
  factor : Double := .ofFloat 2.0
  maxDelayMillis : Nat := 1000
  /-- A random addition to a delay, as a fraction of it. -/
  jitter : Double := .ofFloat 0.1
  deriving DecidableEq, Repr

structure ClusterConfig where
  /-- The address of the server; the one inside of the cluster if it is missing. -/
  apiServer : Option String := none
  tokenPath : String := "/var/run/secrets/kubernetes.io/serviceaccount/token"
  caPath : String := "/var/run/secrets/kubernetes.io/serviceaccount/ca.crt"
  timeoutSeconds : Nat := 10
  deriving DecidableEq, Repr

/-- Where the operator can be asked about its state. -/
structure HttpConfig where
  listenAddress : String := "0.0.0.0:8081"
  deriving DecidableEq, Repr

/-- What the operator tells about its work. -/
structure LoggingConfig where
  level : String := "info"
  json : Bool := false
  deriving DecidableEq, Repr

structure OperatorConfig where
  controller : ControllerConfig := {}
  retry : RetryConfig := {}
  cluster : ClusterConfig := {}
  http : HttpConfig := {}
  logging : LoggingConfig := {}
  deriving DecidableEq, Repr

def ControllerConfig.settings (c : ControllerConfig) : ControllerSettings where
  ns := c.ns
  sidecarImage := c.sidecarImage
  runnerImage := c.runnerImage
  checkInterval := .ofSeconds c.checkSeconds
  defaultTimeout := .ofSeconds c.timeoutSeconds
  resyncInterval := .ofSeconds (max c.resyncSeconds 1)

def RetryConfig.policy (c : RetryConfig) : RetryPolicy where
  steps := max c.steps 1
  initialDelay := .ofMillis c.initialDelayMillis
  factor := c.factor
  maxDelay := .ofMillis c.maxDelayMillis
  jitter := c.jitter

end CertRuns
