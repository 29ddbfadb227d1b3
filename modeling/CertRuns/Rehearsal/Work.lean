import CertRuns.Control.Watcher
import CertRuns.Harvest.Basic

/-!
# The tasks of a rehearsal

* `Work` : what a task does, with `Work.wait` : what it waits for;
* `Result` : what comes out of it;
* `Work.resume` : a task taken on once its wait is over, together with what it does to the
  controllers and the tasks that it starts;
* `Work.keeps` : does a controller's shutdown wait for the task?
-/

namespace CertRuns.Rehearsal

/-- What a task does. Controllers are named by their numbers. -/
inductive Work where
  | call (request : Request)
  | update (u : StatusUpdate)
  | completion (w : CompletionWait)
  | reconcile (owner : Nat) (watcher : Option Nat) (r : Reconcile)
  | monitor (owner : Nat) (m : Monitor)
  | watcher (owner : Nat) (w : Watcher)
  | seeding (owner : Nat) (ns : String)
  | harvest (h : Harvest)

/-- What comes out of a task. -/
inductive Result where
  | called (request : Request) (reply : request.Reply)
  | updated (result : Except ClusterError Run)
  | waited (result : Except MonitorError Int32)
  | reconciled (result : Except ClusterError Outcome)
  | seeded (result : Except ClusterError UInt64)
  | harvested (result : Except HarvestError Report)
  | done

inductive Next where
  | going (work : Work)
  | ended (result : Result)

/-- What a step of a task leads to. -/
structure Step where
  controllers : List Controller
  started : List Work := []
  next : Next

namespace Work

abbrev wait : Work → Wait
  | call request => .call request
  | update u => u.wait
  | completion w => w.wait
  | reconcile _ _ r => r.wait
  | monitor _ m => m.wait
  | watcher _ w => w.wait
  | seeding _ ns => .call (.listPods ns)
  | harvest h => h.wait

def hasPanicked (work : Work) : Bool :=
  match work.wait with
  | .never => true
  | _ => false

def keeps (controller : Nat) : Work → Bool
  | w@(monitor owner _) => owner == controller && !w.hasPanicked
  | w@(reconcile owner (some _) _) => owner == controller && !w.hasPanicked
  | _ => false

/-- A reconciliation after a step. Its watcher is told about a failure. -/
def afterReconcile (controllers : List Controller) (owner : Nat) (watcher : Option Nat)
    (key : ObjectKey) : Controller × Reconcile.Turn → Step
  | (c, .going r) =>
    { controllers := controllers.set owner c, next := .going (reconcile owner watcher r) }
  | (c, .ended result m) =>
    let c := match result, watcher with
      | .error _, some number => c.fail number key
      | _, _ => c
    { controllers := controllers.set owner c
      started := m.toList.map (monitor owner)
      next := .ended (.reconciled result) }

def afterMonitor (controllers : List Controller) (owner : Nat) :
    Controller × Monitor.Turn → Step
  | (c, .going m) => { controllers := controllers.set owner c, next := .going (monitor owner m) }
  | (c, .ended) => { controllers := controllers.set owner c, next := .ended .done }

/-- A watcher after a step, with the reconciliations that it starts. -/
def afterWatcher (controllers : List Controller) (owner number : Nat) :
    Controller × Watcher.Turn → Step
  | (c, .going w events) =>
    { controllers := controllers.set owner c
      started := events.map fun key => reconcile owner (some number) (.start key)
      next := .going (watcher owner w) }
  | (c, .ended) => { controllers := controllers.set owner c, next := .ended .done }

def resume (controllers : List Controller) (now : Instant) :
    (work : Work) → work.wait.Event → Step
  | call request, reply => { controllers, next := .ended (.called request reply) }
  | update u, event =>
    match u.resume now event with
    | .going u => { controllers, next := .going (update u) }
    | .ended result => { controllers, next := .ended (.updated result) }
  | completion w, event =>
    match w.resume now event with
    | .going w => { controllers, next := .going (completion w) }
    | .ended result => { controllers, next := .ended (.waited result) }
  | reconcile owner told r, event =>
    match controllers[owner]? with
    | some c => afterReconcile controllers owner told r.key (r.resume c now event)
    | none => { controllers, next := .ended .done }
  | monitor owner m, event =>
    match controllers[owner]? with
    | some c => afterMonitor controllers owner (m.resume c now event)
    | none => { controllers, next := .ended .done }
  | watcher owner w, event =>
    match controllers[owner]? with
    | some c => afterWatcher controllers owner w.number (w.resume c now event)
    | none => { controllers, next := .ended .done }
  | seeding _ _, .error e => { controllers, next := .ended (.seeded (.error e)) }
  | seeding owner _, .ok pods =>
    match controllers[owner]? with
    | some c =>
      let (c, highest) := c.seed pods
      { controllers := controllers.set owner c, next := .ended (.seeded (.ok highest)) }
    | none => { controllers, next := .ended .done }
  | harvest h, event =>
    match h.resume now event with
    | .going h => { controllers, next := .going (harvest h) }
    | .ended result => { controllers, next := .ended (.harvested result) }

end Work

end CertRuns.Rehearsal
