import CertRuns.Control.Listing
import CertRuns.Control.Reconcile

/-!
# Watching the runs of a namespace

A watcher lists the runs once a period and starts a reconciliation for every event. Before its
first listing it starts the names of pods above those that exist. A run whose reconciliation failed
is forgotten, so that the next listing brings it up again if it is still there.

* `Watcher` : a watcher at work, with `start`, `wait` and `resume`;
* `Controller.takeFailures` : the failures that a watcher has to be told.
-/

namespace CertRuns

inductive Watcher.Stage where
  | resting
  | seeding
  | listing
  deriving DecidableEq, Repr

structure Watcher where
  /-- What tells the watchers of one controller apart. -/
  number : Nat
  ns : String
  token : Token
  ticker : Ticker
  known : KeySet := .empty
  initial : Bool := true
  seeded : Bool := false
  stage : Watcher.Stage := .resting

def Controller.takeFailures (c : Controller) (number : Nat) : Controller × List ObjectKey :=
  ({ c with failures := c.failures.filter (·.1 != number) },
    (c.failures.filter (·.1 == number)).map (·.2))

def Controller.fail (c : Controller) (number : Nat) (key : ObjectKey) : Controller :=
  { c with failures := c.failures ++ [(number, key)] }

namespace Watcher

def start (c : Controller) (now : Instant) (number : Nat) (token : Token) : Watcher where
  number
  ns := c.settings.ns
  token
  ticker := .start now c.settings.resyncInterval

abbrev wait (w : Watcher) : Wait :=
  match w.stage with
  | .resting => .pause w.token none w.ticker.next
  | .seeding => .call (.listPods w.ns)
  | .listing => .call (.listRuns w.ns)

/-- What comes of a step: the watcher goes on, with reconciliations to be started, or it ends. -/
inductive Turn where
  | going (w : Watcher) (events : List ObjectKey)
  | ended

def beginListing (c : Controller) (w : Watcher) : Controller × Turn :=
  let (c, failed) := c.takeFailures w.number
  (c, .going { w with known := failed.foldl Table.erase w.known, stage := .listing } [])

def afterPause (c : Controller) (now : Instant) (w : Watcher) : Alarm → Controller × Turn
  | .tick =>
    let w := { w with ticker := w.ticker.advance now }
    if w.seeded then w.beginListing c else (c, .going { w with stage := .seeding } [])
  | _ => (c, .ended)

/-- The watcher after it has looked for pods. Without an answer it tries again later. -/
def afterSeed (c : Controller) (w : Watcher) : Except ClusterError (List Pod) → Controller × Turn
  | .ok pods => { w with seeded := true }.beginListing (c.seed pods).1
  | .error _ => (c, .going { w with stage := .resting } [])

/-- The watcher after it has listed the runs. Without an answer it tries again later. -/
def afterList (w : Watcher) : Except ClusterError (List Run) → Turn
  | .ok runs =>
    let (events, known) := compareListing w.known runs w.initial
    .going { w with known, initial := false, stage := .resting } events
  | .error _ => .going { w with stage := .resting } []

def resume (c : Controller) (now : Instant) : (w : Watcher) → w.wait.Event → Controller × Turn
  | w@⟨_, _, _, _, _, _, _, .resting⟩, alarm => w.afterPause c now alarm
  | w@⟨_, _, _, _, _, _, _, .seeding⟩, reply => w.afterSeed c reply
  | w@⟨_, _, _, _, _, _, _, .listing⟩, reply => (c, w.afterList reply)

end Watcher

end CertRuns
