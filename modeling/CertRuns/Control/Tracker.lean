import CertRuns.Control.Wait

/-!
# Which runs have a pod

The tracker knows for every run whether it already has a pod. A run is claimed before its pod is
built; the claim is committed once the pod exists and released on every other way. A claim is good
for one entry only: if the run is removed and claimed again in between, the old claim does nothing.

* `RunState`, `TrackedRun`, `Tracker` : the entries and the number of claims so far;
* `Claim` : what a successful claim hands out;
* `Tracker.claim`, `commit`, `release`, `complete`, `remove` : the operations;
* `Tracker.podName?`, `state?`, `contains`, `size`, `snapshot` : the views.
-/

namespace CertRuns

inductive RunState where
  /-- Claimed; the pod is being built or created. -/
  | deploying
  /-- The pod exists and is watched. -/
  | running
  /-- The pod is no longer watched. -/
  | completed
  deriving DecidableEq, Repr

def RunState.text : RunState → String
  | deploying => "deploying"
  | running => "running"
  | completed => "completed"

/-- What is known about a tracked run. -/
structure TrackedRun where
  /-- The number of the claim that made the entry. -/
  number : Nat
  podName : Option String
  cancel : Option Token
  state : RunState
  deriving DecidableEq, Repr

/-- The tracked runs of one operator. -/
structure Tracker where
  runs : Table ObjectKey TrackedRun := .empty
  /-- The number of claims so far. -/
  claims : Nat := 0
  deriving DecidableEq, Repr, Inhabited

/-- The right to say which pod a run has. -/
structure RunClaim where
  key : ObjectKey
  number : Nat
  deriving DecidableEq, Repr

/-- What is left of an entry that is removed. -/
structure ReleasedRun where
  podName : Option String
  cancel : Option Token
  deriving DecidableEq, Repr

/-- An entry as it is shown. -/
structure TrackedView where
  key : ObjectKey
  podName : Option String
  state : RunState
  deriving DecidableEq, Repr

namespace Tracker

/-! ## Operations -/

def claim (t : Tracker) (key : ObjectKey) : Tracker × Option RunClaim :=
  if t.runs.contains key then (t, none)
  else
    let number := t.claims + 1
    (⟨t.runs.insert key ⟨number, none, none, .deploying⟩, number⟩, some ⟨key, number⟩)

/-- Does the entry of the claimed run stem from this claim? -/
def holds (t : Tracker) (c : RunClaim) : Bool :=
  match t.runs.get? c.key with
  | some run => run.number == c.number
  | none => false

/-- Say which pod a claimed run has, and how watching it is cancelled. False if the run was
removed since it was claimed. -/
def commit (t : Tracker) (c : RunClaim) (podName : String) (cancel : Token) : Tracker × Bool :=
  if t.holds c then
    ({ t with runs := t.runs.insert c.key ⟨c.number, some podName, some cancel, .running⟩ }, true)
  else (t, false)

def release (t : Tracker) (c : RunClaim) : Tracker :=
  if t.holds c then { t with runs := t.runs.erase c.key } else t

def complete (t : Tracker) (key : ObjectKey) : Tracker :=
  { t with runs := t.runs.adjust key fun run => { run with state := .completed } }

def remove (t : Tracker) (key : ObjectKey) : Tracker × Option ReleasedRun :=
  ({ t with runs := t.runs.erase key },
    (t.runs.get? key).map fun run => ⟨run.podName, run.cancel⟩)

/-! ## Views -/

def contains (t : Tracker) (key : ObjectKey) : Bool := t.runs.contains key

def podName? (t : Tracker) (key : ObjectKey) : Option String :=
  (t.runs.get? key).bind (·.podName)

def state? (t : Tracker) (key : ObjectKey) : Option RunState := (t.runs.get? key).map (·.state)

def size (t : Tracker) : Nat := t.runs.size

def snapshot (t : Tracker) : List TrackedView :=
  t.runs.entries.map fun e => ⟨e.1, e.2.podName, e.2.state⟩

end Tracker

/-- An entry as a record; a missing pod is left out. -/
def TrackedView.toJson (v : TrackedView) : Json :=
  .record (Json.field "namespace" (.ofText v.key.ns) ++ Json.field "name" (.ofText v.key.name) ++
    Json.optionField "pod_name" Json.ofText v.podName ++
    Json.field "state" (.ofText v.state.text))

end CertRuns
