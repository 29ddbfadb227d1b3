import CertRuns.Control.Completion
import CertRuns.Control.Controller

/-!
# Following a pod to its end

A monitor waits for the pod of a run, writes the final phase into the run's status and then marks
the run as completed. A cancelled monitor does neither.

* `finalPhase?` : the phase that the end of a wait leads to;
* `Monitor` : a monitor at work, with `start`, `wait` and `resume`.
-/

namespace CertRuns

def finalPhase? : Except MonitorError Int32 → Option Phase
  | .ok code => some (if code = 0 then .finished else .error)
  | .error (.cancelled _) => none
  | .error _ => some .error

inductive Monitor.Stage where
  | waiting (w : CompletionWait)
  | recording (u : StatusUpdate)

/-- A monitor at work for a run. -/
structure Monitor where
  key : ObjectKey
  stage : Monitor.Stage

namespace Monitor

def start (c : Controller) (now : Instant) (run : Run) (pod : ObjectKey) (token : Token) :
    Monitor :=
  let limit := runTimeout run.spec.timeout c.settings.defaultTimeout
  ⟨run.key, .waiting (.start now pod c.settings.checkInterval limit token)⟩

abbrev wait (m : Monitor) : Wait :=
  match m.stage with
  | .waiting w => w.wait
  | .recording u => u.wait

/-- What comes of a step: the monitor goes on, or it ends. -/
inductive Turn where
  | going (m : Monitor)
  | ended

def afterWait (c : Controller) (m : Monitor) : CompletionWait.Turn → Turn
  | .going w => .going { m with stage := .waiting w }
  | .ended result =>
    match finalPhase? result with
    | none => .ended
    | some phase => .going { m with stage := .recording (.setPhase m.key c.retry phase) }

/-- The monitor after a step of its write. A write that fails is passed over. -/
def afterRecord (c : Controller) (m : Monitor) : StatusUpdate.Turn → Controller × Turn
  | .going u => (c, .going { m with stage := .recording u })
  | .ended _ => (c.withTracker (c.tracker.complete m.key), .ended)

def resume (c : Controller) (now : Instant) : (m : Monitor) → m.wait.Event → Controller × Turn
  | m@⟨_, .waiting w⟩, event => (c, m.afterWait c (w.resume now event))
  | m@⟨_, .recording u⟩, event => m.afterRecord c (u.resume now event)

end Monitor

end CertRuns
