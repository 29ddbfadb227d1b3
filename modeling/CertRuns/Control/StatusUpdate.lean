import CertRuns.Control.Backoff
import CertRuns.Control.Wait

/-!
# Changing the status of a run

A change of a run's status reads the run, changes the status and writes it back under the version
that was read. A conflict means that somebody else wrote in between; the change then starts over
after a pause, until its attempts are used up. Any other error ends it. Where the policy has no pause
for it, the change panics.

* `StatusUpdate` : a change under way, with `start`, `wait` and `resume`;
* `StatusUpdate.setPhase` : the change that sets nothing but the phase.
-/

namespace CertRuns

/-- Where a change of a status stands. -/
inductive StatusUpdate.Stage where
  | reading
  | writing (run : Run)
  /-- The random part of its pause is drawn. -/
  | drawing
  | resting (wake : Instant)
  | panicked

def StatusUpdate.Stage.rest (now : Instant) : Option Duration → Stage
  | some pause => .resting (now.after pause)
  | none => .panicked

/-- A change of a run's status under way. -/
structure StatusUpdate where
  key : ObjectKey
  change : RunStatus → RunStatus
  policy : RetryPolicy
  /-- The number of the attempt, from one. -/
  attempt : Nat
  stage : StatusUpdate.Stage

namespace StatusUpdate

def start (key : ObjectKey) (policy : RetryPolicy) (change : RunStatus → RunStatus) :
    StatusUpdate :=
  ⟨key, change, policy, 1, .reading⟩

def setPhase (key : ObjectKey) (policy : RetryPolicy) (phase : Phase) : StatusUpdate :=
  start key policy fun s => { s with phase }

abbrev wait (u : StatusUpdate) : Wait :=
  match u.stage with
  | .reading => .call (.getRun u.key)
  | .writing run => .call (.updateRunStatus run)
  | .drawing => .draw u.policy.jitter
  | .resting wake => .sleep wake
  | .panicked => .never

/-- What comes of a step: the change goes on, or it ends with the stored run or an error. -/
inductive Turn where
  | going (u : StatusUpdate)
  | ended (result : Except ClusterError Run)

def afterRead (u : StatusUpdate) : Except ClusterError Run → Turn
  | .error e => .ended (.error e)
  | .ok run => .going { u with stage := .writing { run with status := u.change run.status } }

/-- The change after a conflict that leaves it another attempt. -/
def afterConflict (u : StatusUpdate) (now : Instant) : StatusUpdate :=
  if u.policy.draws then { u with stage := .drawing }
  else { u with stage := .rest now (u.policy.pause? u.attempt none) }

def afterWrite (u : StatusUpdate) (now : Instant) : Except ClusterError Run → Turn
  | .ok stored => .ended (.ok stored)
  | .error e =>
    if e.isConflict ∧ u.attempt < u.policy.steps then .going (u.afterConflict now)
    else .ended (.error e)

/-- The change after the random part of its pause was drawn. -/
def afterDraw (u : StatusUpdate) (now : Instant) (part : Double) : Turn :=
  .going { u with stage := .rest now (u.policy.pause? u.attempt (some part)) }

def afterRest (u : StatusUpdate) : Turn :=
  .going { u with stage := .reading, attempt := u.attempt + 1 }

def resume (now : Instant) : (u : StatusUpdate) → u.wait.Event → Turn
  | u@⟨_, _, _, _, .reading⟩, reply => u.afterRead reply
  | u@⟨_, _, _, _, .writing _⟩, reply => u.afterWrite now reply
  | u@⟨_, _, _, _, .drawing⟩, part => u.afterDraw now part
  | u@⟨_, _, _, _, .resting _⟩, _ => u.afterRest

end StatusUpdate

end CertRuns
