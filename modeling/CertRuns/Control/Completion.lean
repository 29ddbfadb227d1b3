import CertRuns.Control.Wait
import CertRuns.Job.Names

/-!
# Waiting for a pod to finish

* `MonitorError` : why a wait ends without an exit code;
* `runTimeout` : how long a run may take;
* `suiteExitCode` : the exit code of the suite in a pod that has failed;
* `CompletionWait` : a wait under way, with `start`, `wait` and `resume`. It looks at the pod at
  once and then once a period, until the pod has finished or is gone, the time is over, or the
  wait is cancelled. A look that fails otherwise is passed over. A wait without a period, or until a
  point of time that the clock cannot tell, panics.
-/

namespace CertRuns

/-- Why a wait ends without an exit code. -/
inductive MonitorError where
  | timeout (pod : ObjectKey) (limit : Duration)
  | missingExitStatus (pod : ObjectKey)
  | notTerminated (pod : ObjectKey)
  | cluster (cause : ClusterError)
  | cancelled (pod : ObjectKey)
  deriving DecidableEq, Repr

def MonitorError.message : MonitorError → String
  | timeout pod limit =>
    "timeout (" ++ limit.text ++ ") reached while waiting for cert suite pod " ++ pod.text ++
      " to finish"
  | missingExitStatus pod =>
    "pod " ++ pod.text ++ " has no status for container " ++ Job.suiteContainer
  | notTerminated pod =>
    "container " ++ Job.suiteContainer ++ " in pod " ++ pod.text ++ " has not terminated"
  | cluster cause => "failed to read pod: " ++ cause.message
  | cancelled pod => "monitoring of pod " ++ pod.text ++ " was cancelled"

/-- How long a run may take, from the text in its request. A text that denotes no span, or an
empty one, leaves the default. -/
def runTimeout (s : String) (default : Duration) : Duration :=
  match Duration.parse? (Text.trim s) with
  | some d => if d.nanos = 0 then default else d
  | none => default

def suiteExitCode (p : Pod) : Except MonitorError Int32 :=
  match p.status.bind fun s => s.containers.find? (·.name == Job.suiteContainer) with
  | none => .error (.missingExitStatus p.key)
  | some status =>
    match status.state.terminated with
    | none => .error (.notTerminated p.key)
    | some t => .ok t.exitCode

/-! ## The wait -/

inductive CompletionWait.Stage where
  | resting
  | reading
  | panicked
  deriving DecidableEq, Repr

namespace CompletionWait.Stage

variable {deadline : Instant} {period : Duration}

/-- Where a wait stands at its start. It panics without a period, or if the clock cannot tell its
deadline. -/
@[irreducible] def first (deadline : Instant) (period : Duration) : Stage :=
  if deadline.Kept ∧ period.nanos ≠ 0 then .resting else .panicked

theorem first_resting (h : deadline.Kept ∧ period.nanos ≠ 0) :
    first deadline period = .resting := by
  unfold first
  exact if_pos h

theorem first_panicked (h : ¬ (deadline.Kept ∧ period.nanos ≠ 0)) :
    first deadline period = .panicked := by
  unfold first
  exact if_neg h

theorem first_ne_reading (deadline : Instant) (period : Duration) :
    first deadline period ≠ .reading := by
  unfold first
  split <;> nofun

end CompletionWait.Stage

/-- A wait for a pod under way. -/
structure CompletionWait where
  pod : ObjectKey
  limit : Duration
  deadline : Instant
  token : Token
  ticker : Ticker
  stage : CompletionWait.Stage

namespace CompletionWait

def start (now : Instant) (pod : ObjectKey) (period limit : Duration) (token : Token) :
    CompletionWait :=
  ⟨pod, limit, now.add limit, token, .start now period, .first (now.add limit) period⟩

abbrev wait (w : CompletionWait) : Wait :=
  match w.stage with
  | .resting => .pause w.token (some w.deadline) w.ticker.next
  | .reading => .call (.getPod w.pod)
  | .panicked => .never

theorem start_wait_eq_never {now : Instant} {pod : ObjectKey} {period limit : Duration}
    {token : Token} :
    (start now pod period limit token).wait = .never ↔
      ¬ ((now.add limit).Kept ∧ period.nanos ≠ 0) := by
  by_cases h : (now.add limit).Kept ∧ period.nanos ≠ 0
  · rw [start, CompletionWait.Stage.first_resting h]
    exact ⟨nofun, fun hnot => absurd h hnot⟩
  · rw [start, CompletionWait.Stage.first_panicked h]
    exact ⟨fun _ => h, fun _ => rfl⟩

/-- What comes of a step: the wait goes on, or it ends with an exit code or an error. -/
inductive Turn where
  | going (w : CompletionWait)
  | ended (result : Except MonitorError Int32)

def afterPause (w : CompletionWait) (now : Instant) : Alarm → Turn
  | .cancelled => .ended (.error (.cancelled w.pod))
  | .deadline => .ended (.error (.timeout w.pod w.limit))
  | .tick => .going { w with stage := .reading, ticker := w.ticker.advance now }

def afterRead (w : CompletionWait) : Except ClusterError Pod → Turn
  | .ok pod =>
    match pod.phase with
    | .succeeded => .ended (.ok 0)
    | .failed => .ended (suiteExitCode pod)
    | _ => .going { w with stage := .resting }
  | .error e =>
    if e.isNotFound then .ended (.error (.cluster e)) else .going { w with stage := .resting }

def resume (now : Instant) : (w : CompletionWait) → w.wait.Event → Turn
  | w@⟨_, _, _, _, _, .resting⟩, alarm => w.afterPause now alarm
  | w@⟨_, _, _, _, _, .reading⟩, reply => w.afterRead reply

end CompletionWait

end CertRuns
