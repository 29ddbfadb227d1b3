import CertRuns.Rehearsal.Link
import CertRuns.Rehearsal.Work

/-!
# A rehearsal

A rehearsal runs the parts of the operator on a cluster in memory under a clock of its own. The
clock stands still while any task can go on, and then moves to the next point of time that a task
waits for, in whole milliseconds. A task that goes on is not interrupted until it waits again, and
of two tasks that can go on the one that has waited longer comes first.

* `World` : the cluster, the link to it, the clock, the controllers and the tasks;
* `World.isReady`, `World.dueTime?` : can a task go on, and when can it at the latest;
* `World.settle` : let all tasks go on that can; `World.run` : let time pass until a goal is met;
* `World.start`, `finish`, `advance`, `result?` : tasks and time from outside.
-/

namespace CertRuns.Rehearsal

structure Task where
  id : Nat
  work : Work
  /-- The answer that is on its way, and when it arrives. -/
  reply : Option (Nat × work.wait.Event) := none

structure World where
  /-- The time in milliseconds. -/
  now : Nat := 0
  /-- The date that new objects get. -/
  date : Timestamp := .epoch
  /-- The `uid` that new objects get. -/
  uid : String := Stamp.zeroUid
  store : Store := {}
  link : Link := {}
  file : FileState := .missing
  controllers : List Controller := []
  /-- The tokens that were raised, apart from those of controllers. -/
  raised : List Token := []
  tasks : List Task := []
  results : List (Nat × Result) := []
  /-- The number of tasks and tokens so far. -/
  count : Nat := 0

namespace World

def instant (w : World) : Instant := ⟨w.now * 1000000⟩

/-- The millisecond in which a point of time is reached. -/
def millis (t : Instant) : Nat := (t.nanos + 999999) / 1000000

/-! ## What tasks wait for -/

def isCancelled (w : World) (work : Work) (token : Token) : Bool :=
  match work with
  | .monitor owner _ => (w.controllers[owner]?.map (·.isCancelled token)).getD false
  | _ => w.raised.contains token

def alarm? (w : World) (cancelled : Bool) (deadline : Option Instant) (tick : Instant) :
    Option Alarm :=
  if cancelled then some .cancelled
  else if (deadline.map fun t => decide (millis t ≤ w.now)).getD false then some .deadline
  else if millis tick ≤ w.now then some .tick
  else none

def isReady (w : World) (t : Task) : Bool :=
  match t.reply with
  | some (arrival, _) => arrival ≤ w.now
  | none =>
    match t.work.wait with
    | .call _ => true
    | .sleep wake => millis wake ≤ w.now
    | .pause token deadline tick => (w.alarm? (w.isCancelled t.work token) deadline tick).isSome
    | .look => true
    | .draw _ => true
    | .never => false

def dueTime? (t : Task) : Option Nat :=
  match t.reply with
  | some (arrival, _) => some arrival
  | none =>
    match t.work.wait with
    | .call _ => some 0
    | .sleep wake => some (millis wake)
    | .pause _ none tick => some (millis tick)
    | .pause _ (some deadline) tick => some (min (millis deadline) (millis tick))
    | .look => some 0
    | .draw _ => some 0
    | .never => none

/-- The next point of time that a task waits for. -/
def nextTime? (w : World) : Option Nat := (w.tasks.filterMap dueTime?).min?

/-! ## Steps of tasks -/

def perform (w : World) (r : Request) : World × r.Reply :=
  let (link, fault) := (w.link.note w.now r).nextFault r.method
  match fault with
  | some f => ({ w with link }, .error (f.error r.method.kind r.target))
  | none =>
    let (store, reply) := w.store.perform ⟨w.date, w.uid⟩ r
    ({ w with link, store }, reply)

/-- What a task that can go on is given: at once, or after a delay. -/
def event (w : World) (work : Work) : (wait : Wait) → World × Option (Nat × wait.Event)
  | .call r =>
    let (w, reply) := w.perform r
    (w, some (w.now + (w.link.delay r.method).getD 0, reply))
  | .sleep _ => (w, some (w.now, ()))
  | .pause token deadline tick =>
    (w, (w.alarm? (w.isCancelled work token) deadline tick).map (w.now, ·))
  | .look => (w, some (w.now, w.file))
  | .draw _ => (w, some (w.now, ⟨0⟩))
  | .never => (w, none)

/-- Let a task wait. The tasks stand in the order in which they began to wait. -/
def putBack (w : World) (t : Task) : World :=
  { w with tasks := w.tasks.filter (·.id != t.id) ++ [t] }

def start (w : World) (work : Work) : World × Nat :=
  ({ w with tasks := w.tasks ++ [{ id := w.count, work }], count := w.count + 1 }, w.count)

def endTask (w : World) (id : Nat) (result : Result) : World :=
  { w with tasks := w.tasks.filter (·.id != id), results := (id, result) :: w.results }

/-- Let a task go on until it has to wait. -/
def runTask : (fuel : Nat) → World → Task → World
  | 0, w, t => w.putBack t
  | fuel + 1, w, t =>
    if w.isReady t then
      let (w, given) := match t.reply with
        | some (arrival, e) => (w, some (arrival, e))
        | none => w.event t.work t.work.wait
      match given with
      | none => w.putBack t
      | some (arrival, e) =>
        if w.now < arrival then w.putBack { t with reply := some (arrival, e) }
        else
          let step := t.work.resume w.controllers w.instant e
          let w := { w with controllers := step.controllers }
          let w := step.started.foldl (fun w work => (w.start work).1) w
          match step.next with
          | .going work => runTask fuel w { id := t.id, work }
          | .ended result => w.endTask t.id result
    else w.putBack t

/-- The number of steps after which a rehearsal that does not come to rest is broken off. -/
def stepLimit : Nat := 1000000000

/-- Let every task go on that can, in order. -/
def round (w : World) : World :=
  (w.tasks.map (·.id)).foldl (fun w id =>
    match w.tasks.find? (·.id == id) with
    | some t => if w.isReady t then runTask stepLimit w t else w
    | none => w) w

def settle : (fuel : Nat) → World → World
  | 0, w => w
  | fuel + 1, w => if w.tasks.any w.isReady then settle fuel w.round else w

/-! ## Time -/

/-- Let time pass until the goal is met, nothing is left to wait for, or the limit is reached. -/
def run (goal : World → Bool) (limit : Option Nat) : (fuel : Nat) → World → World
  | 0, w => w
  | fuel + 1, w =>
    let w := w.settle stepLimit
    if goal w then w
    else
      match w.nextTime?.filter fun t => limit.all fun l => t ≤ l with
      | some t => run goal limit fuel { w with now := max w.now t }
      | none => { w with now := max w.now (limit.getD 0) }

/-- Let all tasks go on without letting time pass. -/
def rest (w : World) : World := w.settle stepLimit

def advance (w : World) (ms : Nat) : World :=
  w.run (fun _ => false) (some (w.now + ms)) stepLimit

def hasEnded (w : World) (id : Nat) : Bool := !w.tasks.any (·.id == id)

/-- Let time pass until a task has ended, up to a limit if there is one. -/
def finish (w : World) (id : Nat) (limit : Option Nat) : World :=
  w.run (·.hasEnded id) limit stepLimit

def result? (w : World) (id : Nat) : Option Result := w.results.lookup id

/-! ## Tokens and controllers -/

def mint (w : World) : World × Token := ({ w with count := w.count + 1 }, ⟨w.count⟩)

def raise (w : World) (t : Token) : World := { w with raised := t :: w.raised }

def addController (w : World) (settings : ControllerSettings) (retry : RetryPolicy) : World :=
  { w with controllers := w.controllers ++ [{ settings, retry }] }

/-- Start a watcher for a controller, with a token that ends it. -/
def startWatcher (w : World) (owner : Nat) (c : Controller) : World × Nat × Token :=
  let (w, token) := w.mint
  let (w, id) := w.start (.watcher owner (.start c w.instant w.count token))
  (w, id, token)

/-- Shut a controller down: cancel its monitors and wait for its tasks. The number of tasks that
are left is handed back too. -/
def shutdown (w : World) (owner : Nat) : World × Nat :=
  let stop (c : Controller) : Controller := { c with stopped := true }
  let w := { w with controllers := w.controllers.modify owner stop }
  let w := w.run (fun w => !w.tasks.any (·.work.keeps owner)) none stepLimit
  (w, (w.tasks.filter (·.work.keeps owner)).length)

end World

end CertRuns.Rehearsal
