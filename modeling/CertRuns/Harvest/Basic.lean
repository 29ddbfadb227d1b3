import CertRuns.Control.StatusUpdate
import CertRuns.Harvest.Settings
import CertRuns.Report.Synthesis

/-!
# Harvesting the results of a run

A harvester waits in the pod of a run until the file with the results appears, gives the suite some
time to finish it, and writes the report into the status of the run. Nothing else in the status
changes.

* `HarvestError` : why a harvest ends without a report;
* `Harvest` : a harvest under way, with `start`, `wait` and `resume`. It can be cancelled only
  while it waits for the file.
-/

namespace CertRuns

/-- Why a harvest ends without a report. -/
inductive HarvestError where
  /-- The file is gone, or it is a folder. -/
  | unreadable
  /-- The file is no list of results. -/
  | undecodable
  | cluster (cause : ClusterError)
  | cancelled
  deriving DecidableEq, Repr

def HarvestError.cancelledMessage : String := "harvest cancelled before the claim file appeared"

inductive Harvest.Stage where
  /-- Looking whether the file is there. -/
  | looking
  /-- The file was not there. -/
  | resting (wake : Instant)
  /-- The file is there, and may still be written. -/
  | settling (wake : Instant)
  /-- Reading the file. -/
  | opening
  /-- Reading the run. -/
  | fetching (file : ClaimFile)
  /-- Writing the report. -/
  | storing (report : Report) (update : StatusUpdate)

structure Harvest where
  settings : HarvestSettings
  retry : RetryPolicy
  token : Token
  stage : Harvest.Stage

namespace Harvest

def start (settings : HarvestSettings) (retry : RetryPolicy) (token : Token) : Harvest :=
  ⟨settings, retry, token, .looking⟩

abbrev wait (h : Harvest) : Wait :=
  match h.stage with
  | .looking => .look
  | .resting wake => .pause h.token none wake
  | .settling wake => .sleep wake
  | .opening => .look
  | .fetching _ => .call (.getRun h.settings.run)
  | .storing _ update => update.wait

/-- What comes of a step: the harvest goes on, or it ends with a report or an error. -/
inductive Turn where
  | going (h : Harvest)
  | ended (result : Except HarvestError Report)

/-- The harvest after a look for the file. A folder in its place counts as the file. -/
def afterLook (now : Instant) (h : Harvest) : FileState → Turn
  | .missing => .going { h with stage := .resting (now.after h.settings.pollInterval) }
  | _ => .going { h with stage := .settling (now.after h.settings.settleDelay) }

def afterRest (h : Harvest) : Alarm → Turn
  | .tick => .going { h with stage := .looking }
  | _ => .ended (.error .cancelled)

def afterOpen (h : Harvest) : FileState → Turn
  | .file content =>
    match ClaimFile.ofBytes? content with
    | some file => .going { h with stage := .fetching file }
    | none => .ended (.error .undecodable)
  | _ => .ended (.error .unreadable)

def afterFetch (h : Harvest) (file : ClaimFile) : Except ClusterError Run → Turn
  | .ok run =>
    let report := synthesize file run.spec.reportOptions
    let update := StatusUpdate.start h.settings.run h.retry fun s =>
      { s with report := some report }
    .going { h with stage := .storing report update }
  | .error e => .ended (.error (.cluster e))

/-- The harvest after a step of writing the report. -/
def afterStore (h : Harvest) (report : Report) : StatusUpdate.Turn → Turn
  | .going u => .going { h with stage := .storing report u }
  | .ended (.ok _) => .ended (.ok report)
  | .ended (.error e) => .ended (.error (.cluster e))

def resume (now : Instant) : (h : Harvest) → h.wait.Event → Turn
  | h@⟨_, _, _, .looking⟩, file => h.afterLook now file
  | h@⟨_, _, _, .resting _⟩, alarm => h.afterRest alarm
  | h@⟨_, _, _, .settling _⟩, _ => .going { h with stage := .opening }
  | h@⟨_, _, _, .opening⟩, file => h.afterOpen file
  | h@⟨_, _, _, .fetching file⟩, reply => h.afterFetch file reply
  | h@⟨_, _, _, .storing report u⟩, event => h.afterStore report (u.resume now event)

end Harvest

end CertRuns
