import CertRuns.Control.Monitor
import CertRuns.Proofs.Control.Tracker

/-!
# What a step of a monitor can do

* `Monitor.Resumes c now key stage event c' turn` : all that can come of a monitor for `key` at
  `stage` that is given `event`;
* `Monitor.resumes` : what `Monitor.resume` does is one of these.
-/

namespace CertRuns.Monitor

/-- All that can come of a step of a monitor. -/
inductive Resumes (c : Controller) (now : Instant) (key : ObjectKey) :
    (stage : Stage) → (Monitor.mk key stage).wait.Event → Controller → Turn → Prop
  /-- The pod has not come to its end. -/
  | waiting {w w' : CompletionWait} {event : w.wait.Event} (hw : w.resume now event = .going w') :
      Resumes c now key (.waiting w) event c (.going ⟨key, .waiting w'⟩)
  /-- The monitor is cancelled. -/
  | cancelled {w : CompletionWait} {event : w.wait.Event} {result : Except MonitorError Int32}
      (hw : w.resume now event = .ended result) (hp : finalPhase? result = none) :
      Resumes c now key (.waiting w) event c .ended
  /-- The wait is over; the final phase will be written. -/
  | finished {w : CompletionWait} {event : w.wait.Event} {result : Except MonitorError Int32}
      {phase : Phase} (hw : w.resume now event = .ended result)
      (hp : finalPhase? result = some phase) :
      Resumes c now key (.waiting w) event c
        (.going ⟨key, .recording (.setPhase key c.retry phase)⟩)
  /-- The final phase is still being written. -/
  | recording {u u' : StatusUpdate} {event : u.wait.Event} (hu : u.resume now event = .going u') :
      Resumes c now key (.recording u) event c (.going ⟨key, .recording u'⟩)
  /-- The final phase is written, or could not be; the run is marked as completed. -/
  | recorded {u : StatusUpdate} {event : u.wait.Event} {result : Except ClusterError Run}
      (hu : u.resume now event = .ended result) :
      Resumes c now key (.recording u) event (c.withTracker (c.tracker.complete key)) .ended

theorem resumes {c c' : Controller} {now : Instant} {key : ObjectKey} {stage : Stage}
    {event : (Monitor.mk key stage).wait.Event} {turn : Turn}
    (h : Monitor.resume c now ⟨key, stage⟩ event = (c', turn)) :
    Resumes c now key stage event c' turn := by
  cases stage with
  | waiting w =>
    simp only [resume, afterWait] at h
    cases hw : w.resume now event with
    | going w' =>
      rw [hw] at h
      cases h
      exact .waiting hw
    | ended result =>
      rw [hw] at h
      cases hp : finalPhase? result with
      | none =>
        simp only [hp] at h
        cases h
        exact .cancelled hw hp
      | some phase =>
        simp only [hp] at h
        cases h
        exact .finished hw hp
  | recording u =>
    simp only [resume] at h
    cases hu : u.resume now event with
    | going u' =>
      rw [hu] at h
      cases h
      exact .recording hu
    | ended result =>
      rw [hu] at h
      cases h
      exact .recorded hu

end CertRuns.Monitor
