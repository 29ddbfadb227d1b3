import CertRuns.Proofs.Execution
import CertRuns.Rehearsal.Work

/-!
# An operator at work

All tasks of an operator and the controllers that they share, at the granularity of calls to the
cluster: what stands between two waits of a task happens at once, and everything else may come in
between. A call takes effect and is answered in one move, the task goes on in a later one.

* `Thread` : a task, suspended or at its end, with the work that it was started as and the task
  that started it;
* `Operator` : the clock, the controllers, the raised tokens and the tasks;
* `Move` : what can happen next; `Outside` : what users and tests do to the cluster;
* `told` : what a task was told in the course of a history;
* `Operator.Enabled`, `Operator.next`, `Operator.Step` : when a move is possible and what it leads
  to. The answers to calls are arbitrary here: this is the operator at any cluster.
-/

namespace CertRuns

open Rehearsal (Work Result)

/-! ## Tasks -/

/-- How far a task has come. -/
inductive Progress where
  /-- It waits; the answer is what it has been given, but has not yet gone on with. -/
  | waiting (work : Work) (answer : Option work.wait.Event)
  | ended (result : Result)

/-- A task. -/
structure Thread where
  /-- What the task was started as. -/
  origin : Work
  /-- The task that started it, none if it was started from outside. -/
  parent : Option Nat
  progress : Progress

namespace Thread

def begin (parent : Option Nat) (work : Work) : Thread := ⟨work, parent, .waiting work none⟩

def receive (t : Thread) (work : Work) (event : work.wait.Event) : Thread :=
  { t with progress := .waiting work (some event) }

def proceed (t : Thread) : Rehearsal.Next → Thread
  | .going work => { t with progress := .waiting work none }
  | .ended result => { t with progress := .ended result }

end Thread

/-! ## Moves -/

/-- What users and tests do to the cluster. -/
inductive Outside where
  | applyRun (stamp : Stamp) (run : Run)
  | removeRun (key : ObjectKey)
  | setPodStatus (key : ObjectKey) (status : PodStatus)
  | forceConflicts (count : Nat)
  | rejectNextPod (message : String)

/-- What happens next. -/
inductive Move where
  /-- Time passes. -/
  | pass (time : Instant)
  /-- A controller with a fresh tracker is added; it gets the next number. -/
  | install (settings : ControllerSettings) (retry : RetryPolicy)
  /-- A controller is told to shut down. -/
  | shutDown (owner : Nat)
  /-- A token that is not a controller's is raised. -/
  | raise (token : Token)
  /-- A task is started from outside. -/
  | start (work : Work)
  /-- A task gets what it waits for. A call takes effect in this move. -/
  | receive (id : Nat) (work : Work) (event : work.wait.Event)
  /-- A task goes on with what it was given. -/
  | resume (id : Nat) (work : Work) (event : work.wait.Event)
  /-- The cluster changes from outside. -/
  | outside (change : Outside)

/-- The task that a move takes further. -/
def Move.subject? : Move → Option Nat
  | .receive id _ _ => some id
  | .resume id _ _ => some id
  | _ => none

namespace Move

variable {α : Type} {id : Nat} {view : (work : Work) → work.wait.Event → Option α} {m : Move}

/-- What a task is told in a move, as far as `view` shows it. -/
def told? (id : Nat) (view : (work : Work) → work.wait.Event → Option α) : Move → Option α
  | .receive i work event => if i = id then view work event else none
  | _ => none

theorem told?_receive (work : Work) (event : work.wait.Event) :
    (receive id work event).told? id view = view work event := if_pos rfl

theorem told?_eq_some {a : α} (h : m.told? id view = some a) :
    ∃ work event, m = .receive id work event ∧ view work event = some a := by
  cases m with
  | receive i work event =>
    by_cases hi : i = id
    · subst hi
      rw [told?_receive] at h
      exact ⟨work, event, rfl, h⟩
    · rw [told?, if_neg hi] at h
      cases h
  | _ => cases h

theorem told?_eq_none (hm : ∀ work event, m ≠ .receive id work event) :
    m.told? id view = none := by
  cases h : m.told? id view with
  | none => rfl
  | some a =>
    obtain ⟨work, event, he, _⟩ := told?_eq_some h
    exact absurd he (hm work event)

end Move

/-- What a task was told in the course of a history, as far as `view` shows it, the last answer
first, each with the state in which it was given. -/
def told {σ α : Type} (id : Nat) (view : (work : Work) → work.wait.Event → Option α)
    (history : List (σ × Move)) : List (σ × α) :=
  history.filterMap fun moment => (moment.2.told? id view).map (moment.1, ·)

section
variable {σ α : Type} {id : Nat} {view : (work : Work) → work.wait.Event → Option α}

theorem told_cons (s : σ) (m : Move) (history : List (σ × Move)) :
    told id view ((s, m) :: history) =
      ((m.told? id view).map (s, ·)).toList ++ told id view history := by
  cases h : m.told? id view <;> simp [told, h]

theorem told_append (later earlier : List (σ × Move)) :
    told id view (later ++ earlier) = told id view later ++ told id view earlier :=
  List.filterMap_append

/-- A move in which a task is not given anything tells it nothing. -/
theorem told_other {m : Move} (hm : ∀ work event, m ≠ .receive id work event) (s : σ)
    (history : List (σ × Move)) : told id view ((s, m) :: history) = told id view history := by
  rw [told_cons, Move.told?_eq_none hm]
  rfl

/-- A task that never moved was told nothing. -/
theorem told_eq_nil {history : List (σ × Move)}
    (h : ∀ moment ∈ history, moment.2.subject? ≠ some id) : told id view history = [] := by
  refine List.filterMap_eq_nil_iff.mpr fun moment hmem => ?_
  rw [Move.told?_eq_none fun work event he => h moment hmem (by rw [he]; rfl)]
  rfl

end

/-! ## The operator -/

/-- The controllers of an operator and all its tasks, numbered in the order of their starts. -/
structure Operator where
  clock : Instant := ⟨0⟩
  controllers : List Controller := []
  /-- The tokens that were raised, apart from those of controllers. -/
  raised : List Token := []
  threads : List Thread := []

namespace Operator

/-- How far a task has come. -/
def progress? (c : Operator) (id : Nat) : Option Progress := (c.threads[id]?).map (·.progress)

/-- The tracker of a controller; empty while there is no such controller. -/
def tracker (c : Operator) (owner : Nat) : Tracker :=
  (c.controllers[owner]?.map (·.tracker)).getD {}

/-- The number of tokens that a controller has minted. -/
def tokens (c : Operator) (owner : Nat) : Nat := (c.controllers[owner]?.map (·.tokens)).getD 0

/-- The entry of a run in the tracker of a controller. -/
def tracked? (c : Operator) (owner : Nat) (key : ObjectKey) : Option TrackedRun :=
  (c.tracker owner).runs.get? key

def isCancelled (c : Operator) (work : Work) (token : Token) : Bool :=
  match work with
  | .monitor owner _ => (c.controllers[owner]?.map (·.isCancelled token)).getD false
  | _ => c.raised.contains token

/-- May this end the wait of a task? A pause may end in any way that is due, however late; a call
may be answered in any way, and any number up to the bound may be drawn. -/
def Admits (c : Operator) (work : Work) : (wait : Wait) → wait.Event → Prop
  | .sleep wake, _ => wake.nanos ≤ c.clock.nanos
  | .pause token _ _, .cancelled => c.isCancelled work token = true
  | .pause _ deadline _, .deadline => ∃ time ∈ deadline, time.nanos ≤ c.clock.nanos
  | .pause _ _ tick, .tick => tick.nanos ≤ c.clock.nanos
  | .draw bound, number => number.bits ≤ bound.bits
  | _, _ => True

/-- The tasks that may be started from outside. Monitors are started by reconciliations only. -/
inductive MayStart (c : Operator) : Work → Prop
  | call (request : Request) : c.MayStart (.call request)
  | update (key : ObjectKey) (policy : RetryPolicy) (change : RunStatus → RunStatus) :
      c.MayStart (.update (.start key policy change))
  | completion (pod : ObjectKey) (period limit : Duration) (token : Token) :
      c.MayStart (.completion (.start c.clock pod period limit token))
  | reconcile (owner : Nat) (key : ObjectKey) : c.MayStart (.reconcile owner none (.start key))
  | watcher {owner : Nat} {controller : Controller} (h : c.controllers[owner]? = some controller)
      (number : Nat) (token : Token) :
      c.MayStart (.watcher owner (.start controller c.clock number token))
  | seeding (owner : Nat) (ns : String) : c.MayStart (.seeding owner ns)
  | harvest (settings : HarvestSettings) (retry : RetryPolicy) (token : Token) :
      c.MayStart (.harvest (.start settings retry token))

def Enabled (c : Operator) : Move → Prop
  | .pass time => c.clock.nanos ≤ time.nanos
  | .start work => c.MayStart work
  | .receive id work event =>
    c.progress? id = some (.waiting work none) ∧ c.Admits work work.wait event
  | .resume id work event => c.progress? id = some (.waiting work (some event))
  | _ => True

def follow (c : Operator) (id : Nat) (step : Rehearsal.Step) : Operator :=
  { c with
    controllers := step.controllers
    threads := c.threads.modify id (·.proceed step.next) ++ step.started.map (.begin (some id)) }

/-- What a move leads to. -/
def next (c : Operator) : Move → Operator
  | .pass time => { c with clock := time }
  | .install settings retry => { c with controllers := c.controllers ++ [{ settings, retry }] }
  | .shutDown owner =>
    { c with controllers := c.controllers.modify owner fun d => { d with stopped := true } }
  | .raise token => { c with raised := token :: c.raised }
  | .start work => { c with threads := c.threads ++ [.begin none work] }
  | .receive id work event => { c with threads := c.threads.modify id (·.receive work event) }
  | .resume id work event => c.follow id (work.resume c.controllers c.clock event)
  | .outside _ => c

/-- A move of an operator. -/
def Step (c : Operator) (m : Move) (c' : Operator) : Prop := c.Enabled m ∧ c' = c.next m

end Operator

end CertRuns
