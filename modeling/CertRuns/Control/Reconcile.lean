import CertRuns.Control.Monitor
import CertRuns.Job.Build

/-!
# Reconciling a run

Reconciling brings one run from its creation to a pod that is watched, or cleans up after a run
that is gone. A run whose status names a living pod keeps that pod; it never gets a second one.

* `Outcome` : what a reconciliation leads to;
* `Reconcile` : a reconciliation under way, with `start`, `wait` and `resume`. Between two waits
  it works alone on the controller, so its stages are the points where others may come in;
* `Controller.seed` : pod names start above those of the pods that a controller finds.
-/

namespace CertRuns

inductive Outcome where
  /-- A pod was created and is watched. -/
  | started (pod : String)
  /-- The pod in the run's status is watched. -/
  | adopted (pod : String)
  | alreadyTracked
  /-- The run is gone, and so is its pod if it had one. -/
  | cleaned (pod : Option String)
  /-- The run is gone and was not tracked. -/
  | absent
  | deployFailed (reason : String)
  deriving DecidableEq, Repr

inductive Reconcile.Stage where
  /-- The run is being read. -/
  | fetching
  /-- The pod in the run's status is being looked up. -/
  | inspecting (run : Run) (claim : RunClaim) (pod : ObjectKey)
  /-- The phase of the run is being set to deploying. -/
  | announcing (run : Run) (claim : RunClaim) (update : StatusUpdate)
  /-- The pod is being created. -/
  | creating (run : Run) (claim : RunClaim) (podName : String) (pod : Pod)
  /-- The failure to deploy is being written into the status. -/
  | excusing (claim : RunClaim) (reason : String) (update : StatusUpdate)
  /-- The pod is being written into the status. -/
  | recording (run : Run) (podName : String) (token : Token) (update : StatusUpdate)
  /-- The pod of a run that is gone is being deleted. -/
  | deleting (pod : ObjectKey)

structure Reconcile where
  key : ObjectKey
  stage : Reconcile.Stage

namespace Reconcile

def start (key : ObjectKey) : Reconcile := ⟨key, .fetching⟩

abbrev wait (r : Reconcile) : Wait :=
  match r.stage with
  | .fetching => .call (.getRun r.key)
  | .inspecting _ _ pod => .call (.getPod pod)
  | .announcing _ _ update => update.wait
  | .creating _ _ _ pod => .call (.createPod pod)
  | .excusing _ _ update => update.wait
  | .recording _ _ _ update => update.wait
  | .deleting pod => .call (.deletePod pod)

/-- What comes of a step: the reconciliation goes on, or it ends, perhaps with a monitor to be
started. -/
inductive Turn where
  | going (r : Reconcile)
  | ended (result : Except ClusterError Outcome) (monitor : Option Monitor)

def podKey (r : Reconcile) (podName : String) : ObjectKey := ⟨r.key.ns, podName⟩

/-! ## Cleaning up -/

/-- Clean up after a run that is gone: cancel its monitor and delete its pod. -/
def cleanUp (c : Controller) (r : Reconcile) : Controller × Turn :=
  match c.tracker.remove r.key with
  | (_, none) => (c, .ended (.ok .absent) none)
  | (tracker, some released) =>
    let c := (c.withTracker tracker).raise? released.cancel
    match released.podName with
    | none => (c, .ended (.ok (.cleaned none)) none)
    | some podName => (c, .going { r with stage := .deleting (r.podKey podName) })

/-! ## Deploying -/

def announce (c : Controller) (r : Reconcile) (run : Run) (claim : RunClaim) : Turn :=
  .going { r with stage := .announcing run claim (.setPhase r.key c.retry .deploying) }

/-- Give up deploying a run. The claim is kept until the failure is written. -/
def excuse (c : Controller) (r : Reconcile) (claim : RunClaim) (reason : String) : Turn :=
  .going { r with stage := .excusing claim reason (.setPhase r.key c.retry .deployError) }

/-- Build the pod of an announced run under a fresh name. -/
def deploy (c : Controller) (r : Reconcile) (run : Run) (claim : RunClaim) :
    Controller × Turn :=
  let (c, n) := c.nextPodNumber
  let podName := Job.podName n
  match Job.forRun run podName c.settings.sidecarImage c.settings.runnerImage with
  | .ok pod => (c, .going { r with stage := .creating run claim podName pod })
  | .error e => (c, r.excuse c claim e.message)

/-- Commit a created pod and record it, or delete it if the run has gone meanwhile. -/
def commitCreated (c : Controller) (r : Reconcile) (run : Run) (claim : RunClaim)
    (podName : String) : Controller × Turn :=
  let (c, token) := c.mint
  match c.tracker.commit claim podName token with
  | (tracker, true) =>
    let update := StatusUpdate.start r.key c.retry fun s =>
      { s with phase := .running, podName := some podName }
    (c.withTracker tracker, .going { r with stage := .recording run podName token update })
  | (tracker, false) =>
    (c.withTracker tracker, .going { r with stage := .deleting (r.podKey podName) })

/-! ## Adopting -/

/-- Commit the pod that a run's status names and watch it, or delete it if the run has gone
meanwhile. -/
def adopt (c : Controller) (now : Instant) (r : Reconcile) (run : Run) (claim : RunClaim)
    (pod : ObjectKey) : Controller × Turn :=
  let (c, token) := (c.sawPodName pod.name).mint
  match c.tracker.commit claim pod.name token with
  | (tracker, true) =>
    (c.withTracker tracker,
      .ended (.ok (.adopted pod.name)) (some (.start c now run pod token)))
  | (tracker, false) => (c.withTracker tracker, .going { r with stage := .deleting pod })

/-! ## Steps -/

def afterFetch (c : Controller) (r : Reconcile) :
    Except ClusterError Run → Controller × Turn
  | .error e => if e.isNotFound then r.cleanUp c else (c, .ended (.error e) none)
  | .ok run =>
    match c.tracker.claim r.key with
    | (_, none) => (c, .ended (.ok .alreadyTracked) none)
    | (tracker, some claim) =>
      let c := c.withTracker tracker
      match run.recordedPod? with
      | some podName =>
        (c, .going { r with stage := .inspecting run claim (r.podKey podName) })
      | none => (c, r.announce c run claim)

/-- The reconciliation after the recorded pod was looked up. -/
def afterInspect (c : Controller) (now : Instant) (r : Reconcile) (run : Run)
    (claim : RunClaim) (pod : ObjectKey) : Except ClusterError Pod → Controller × Turn
  | .ok _ => r.adopt c now run claim pod
  | .error e =>
    if e.isNotFound then (c, r.announce c run claim)
    else (c.withTracker (c.tracker.release claim), .ended (.error e) none)

def afterAnnounce (c : Controller) (r : Reconcile) (run : Run) (claim : RunClaim) :
    StatusUpdate.Turn → Controller × Turn
  | .going u => (c, .going { r with stage := .announcing run claim u })
  | .ended (.ok _) => r.deploy c run claim
  | .ended (.error e) => (c.withTracker (c.tracker.release claim), .ended (.error e) none)

def afterCreate (c : Controller) (r : Reconcile) (run : Run) (claim : RunClaim)
    (podName : String) : Except ClusterError Pod → Controller × Turn
  | .ok _ => r.commitCreated c run claim podName
  | .error e => (c, r.excuse c claim e.message)

/-- The reconciliation after a step of writing the failure, which may itself fail. -/
def afterExcuse (c : Controller) (r : Reconcile) (claim : RunClaim) (reason : String) :
    StatusUpdate.Turn → Controller × Turn
  | .going u => (c, .going { r with stage := .excusing claim reason u })
  | .ended _ =>
    (c.withTracker (c.tracker.release claim), .ended (.ok (.deployFailed reason)) none)

/-- The reconciliation after a step of recording the pod, which may fail. -/
def afterRecord (c : Controller) (now : Instant) (r : Reconcile) (run : Run)
    (podName : String) (token : Token) : StatusUpdate.Turn → Controller × Turn
  | .going u => (c, .going { r with stage := .recording run podName token u })
  | .ended _ =>
    (c, .ended (.ok (.started podName))
      (some (.start c now run (r.podKey podName) token)))

/-- The reconciliation after the pod was deleted, or could not be. -/
def afterDelete (c : Controller) (pod : ObjectKey) : Controller × Turn :=
  (c, .ended (.ok (.cleaned (some pod.name))) none)

def resume (c : Controller) (now : Instant) :
    (r : Reconcile) → r.wait.Event → Controller × Turn
  | r@⟨_, .fetching⟩, reply => r.afterFetch c reply
  | r@⟨_, .inspecting run claim pod⟩, reply => r.afterInspect c now run claim pod reply
  | r@⟨_, .announcing run claim u⟩, event =>
    r.afterAnnounce c run claim (u.resume now event)
  | r@⟨_, .creating run claim podName _⟩, reply => r.afterCreate c run claim podName reply
  | r@⟨_, .excusing claim reason u⟩, event =>
    r.afterExcuse c claim reason (u.resume now event)
  | r@⟨_, .recording run podName token u⟩, event =>
    r.afterRecord c now run podName token (u.resume now event)
  | ⟨_, .deleting pod⟩, _ => afterDelete c pod

end Reconcile

/-! ## Seeding -/

/-- The highest number in the names of pods, zero if none has a number. -/
def highestPodNumber (pods : List Pod) : UInt64 :=
  (pods.filterMap fun p => Job.podIndex? p.metadata.name).foldl max 0

def Controller.seed (c : Controller) (pods : List Pod) : Controller × UInt64 :=
  let highest := highestPodNumber pods
  (c.sawPodNumber highest, highest)

end CertRuns
