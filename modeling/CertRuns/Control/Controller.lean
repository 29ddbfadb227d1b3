import CertRuns.Control.StatusUpdate
import CertRuns.Control.Tracker
import CertRuns.Job.Names

/-!
# The state of a controller

* `ControllerSettings` : what a controller is configured with;
* `Controller` : the tracker, the counter of pod names, and the tokens that cancel its monitors.
  Its shutdown cancels all of them;
* `Controller.mint`, `isCancelled`, `raise` : tokens;
* `Controller.nextPodNumber`, `sawPodNumber`, `sawPodName` : the counter of pod names.
-/

namespace CertRuns

/-- What a controller is configured with. -/
structure ControllerSettings where
  ns : String
  sidecarImage : String
  runnerImage : String
  checkInterval : Duration
  defaultTimeout : Duration
  resyncInterval : Duration
  deriving DecidableEq, Repr

structure Controller where
  settings : ControllerSettings
  retry : RetryPolicy
  tracker : Tracker := {}
  /-- The highest number in a pod name so far. -/
  podCounter : UInt64 := 0
  /-- The number of tokens so far. -/
  tokens : Nat := 0
  /-- The tokens that were raised one by one. -/
  raised : List Token := []
  /-- Has the controller been shut down? That raises all tokens. -/
  stopped : Bool := false
  /-- Runs whose reconciliation failed, each with the number of the watcher to be told. -/
  failures : List (Nat × ObjectKey) := []

namespace Controller

def mint (c : Controller) : Controller × Token :=
  ({ c with tokens := c.tokens + 1 }, ⟨c.tokens⟩)

def isCancelled (c : Controller) (t : Token) : Bool := c.stopped || c.raised.contains t

def raise (c : Controller) (t : Token) : Controller := { c with raised := t :: c.raised }

def raise? (c : Controller) : Option Token → Controller
  | some t => c.raise t
  | none => c

def nextPodNumber (c : Controller) : Controller × UInt64 :=
  ({ c with podCounter := c.podCounter + 1 }, c.podCounter + 1)

def sawPodNumber (c : Controller) (n : UInt64) : Controller :=
  { c with podCounter := max c.podCounter n }

def sawPodName (c : Controller) (name : String) : Controller :=
  match Job.podIndex? name with
  | some n => c.sawPodNumber n
  | none => c

def withTracker (c : Controller) (t : Tracker) : Controller := { c with tracker := t }

end Controller

end CertRuns
