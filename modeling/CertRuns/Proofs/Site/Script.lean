import CertRuns.Proofs.Site.Basic

/-!
# Executions from scripts

A script names moves without the work and the answers that they carry; the site supplies these.
In the place of a move that is not possible nothing happens, so every script plays as an execution.

* `Act`, `Site.act` : a move by its name, and what it leads to; `act_step` : it is a move;
* `Site.play` : the execution of a script; `play_execution` : it is one;
* `Site.playOn` : the same from a site where something has happened before;
* `Sample` : runs and a controller to play with.
-/

namespace CertRuns

open Rehearsal (Work)

/-- A move by its name. -/
inductive Act where
  | install (settings : ControllerSettings) (retry : RetryPolicy)
  /-- A reconciliation is started from outside. -/
  | reconcile (owner : Nat) (key : ObjectKey)
  /-- A change of a status is started from outside. -/
  | update (key : ObjectKey) (policy : RetryPolicy) (change : RunStatus → RunStatus)
  /-- A call on its own is started from outside. -/
  | call (request : Request)
  /-- A wait for a pod is started from outside. -/
  | completion (pod : ObjectKey) (period limit : Duration) (token : Token)
  /-- The counter of a controller is started above the pods that are there. -/
  | seed (owner : Nat) (ns : String)
  /-- A watcher of a controller is started. -/
  | watch (owner number : Nat) (token : Token)
  /-- A harvest is started. -/
  | harvest (settings : HarvestSettings) (retry : RetryPolicy) (token : Token)
  /-- The call of a task is served. -/
  | serve (id : Nat) (stamp : Stamp)
  /-- The call of a task fails on its way. -/
  | refuse (id : Nat) (e : ClusterError)
  /-- The pause of a task ends with a tick. -/
  | tick (id : Nat)
  /-- The pause of a task ends with its cancellation. -/
  | cancel (id : Nat)
  /-- The sleep of a task is over. -/
  | wake (id : Nat)
  /-- A task looks at its file. -/
  | look (id : Nat) (file : FileState)
  /-- A task goes on with what it was given. -/
  | resume (id : Nat)
  | shutDown (owner : Nat)
  | pass (time : Instant)
  | outside (change : Outside)

namespace Site

def served? (s : Store) (stamp : Stamp) : (wait : Wait) → Option (Store × wait.Event)
  | .call r => some (s.perform stamp r)
  | _ => none

/-- The tick that ends a pause, if it is due. -/
def ticked? (now : Instant) : (wait : Wait) → Option wait.Event
  | .pause _ _ tick => if tick.nanos ≤ now.nanos then some .tick else none
  | _ => none

/-- The cancellation of a pause, if its token is raised. -/
def cancelled? (c : Operator) (work : Work) : (wait : Wait) → Option wait.Event
  | .pause token _ _ => if c.isCancelled work token then some .cancelled else none
  | _ => none

def refused? (e : ClusterError) : (wait : Wait) → Option wait.Event
  | .call _ => some (.error e)
  | _ => none

/-- The end of a sleep, if it is due. -/
def woken? (now : Instant) : (wait : Wait) → Option wait.Event
  | .sleep wake => if wake.nanos ≤ now.nanos then some () else none
  | _ => none

def looked? (file : FileState) : (wait : Wait) → Option wait.Event
  | .look => some file
  | _ => none

/-- The move that an act names, and the store after it. -/
def move? (t : Site) : Act → Option (Move × Store)
  | .install settings retry => some (.install settings retry, t.store)
  | .reconcile owner key => some (.start (.reconcile owner none (.start key)), t.store)
  | .update key policy change => some (.start (.update (.start key policy change)), t.store)
  | .call request => some (.start (.call request), t.store)
  | .completion pod period limit token =>
    some (.start (.completion (.start t.operator.clock pod period limit token)), t.store)
  | .seed owner ns => some (.start (.seeding owner ns), t.store)
  | .watch owner number token =>
    t.operator.controllers[owner]?.map fun c =>
      (.start (.watcher owner (.start c t.operator.clock number token)), t.store)
  | .harvest settings retry token =>
    some (.start (.harvest (.start settings retry token)), t.store)
  | .shutDown owner => some (.shutDown owner, t.store)
  | .pass time =>
    if t.operator.clock.nanos ≤ time.nanos then some (.pass time, t.store) else none
  | .outside change => some (.outside change, change.apply t.store)
  | .refuse id e =>
    match t.operator.progress? id with
    | some (.waiting work none) =>
      (refused? e work.wait).map fun event => (.receive id work event, t.store)
    | _ => none
  | .serve id stamp =>
    match t.operator.progress? id with
    | some (.waiting work none) =>
      (served? t.store stamp work.wait).map fun (store, event) => (.receive id work event, store)
    | _ => none
  | .tick id =>
    match t.operator.progress? id with
    | some (.waiting work none) =>
      (ticked? t.operator.clock work.wait).map fun event => (.receive id work event, t.store)
    | _ => none
  | .cancel id =>
    match t.operator.progress? id with
    | some (.waiting work none) =>
      (cancelled? t.operator work work.wait).map fun event => (.receive id work event, t.store)
    | _ => none
  | .wake id =>
    match t.operator.progress? id with
    | some (.waiting work none) =>
      (woken? t.operator.clock work.wait).map fun event => (.receive id work event, t.store)
    | _ => none
  | .look id file =>
    match t.operator.progress? id with
    | some (.waiting work none) =>
      (looked? file work.wait).map fun event => (.receive id work event, t.store)
    | _ => none
  | .resume id =>
    match t.operator.progress? id with
    | some (.waiting work (some event)) => some (.resume id work event, t.store)
    | _ => none

def act (t : Site) (a : Act) : Move × Site :=
  match t.move? a with
  | some (m, store) => (m, ⟨t.operator.next m, store⟩)
  | none => (.pass t.operator.clock, t)

/-- The history of a script, and the site after it. -/
def play (script : List Act) : List (Site × Move) × Site :=
  script.foldl (fun past a => ((past.2, (past.2.act a).1) :: past.1, (past.2.act a).2)) ([], {})

/-- The history of a script that is played from a site on, and the site after it. -/
def playOn (t : Site) (script : List Act) : List (Site × Move) × Site :=
  script.foldl (fun past a => ((past.2, (past.2.act a).1) :: past.1, (past.2.act a).2)) ([], t)

theorem served?_answers {s s' : Store} {stamp : Stamp} {wait : Wait} {event : wait.Event}
    (h : served? s stamp wait = some (s', event)) : s.Answers s' wait event := by
  cases wait with
  | call r => exact .inl ⟨stamp, Option.some.inj h⟩
  | _ => cases h

theorem served?_admits {c : Operator} {work : Work} {s s' : Store} {stamp : Stamp} {wait : Wait}
    {event : wait.Event} (h : served? s stamp wait = some (s', event)) :
    c.Admits work wait event := by
  cases wait with
  | call r => trivial
  | _ => cases h

theorem ticked?_admits {c : Operator} {work : Work} {wait : Wait} {event : wait.Event}
    (h : ticked? c.clock wait = some event) : c.Admits work wait event := by
  cases wait with
  | pause token deadline tick =>
    by_cases ht : tick.nanos ≤ c.clock.nanos
    · have he : some Alarm.tick = some event := by
        rw [← h, ticked?, if_pos ht]
      cases he
      exact ht
    · have he : none = some event := by
        rw [← h, ticked?, if_neg ht]
      cases he
  | _ => cases h

theorem ticked?_answers {s : Store} {now : Instant} {wait : Wait} {event : wait.Event}
    (h : ticked? now wait = some event) : s.Answers s wait event := by
  cases wait with
  | pause token deadline tick => rfl
  | _ => cases h

theorem cancelled?_admits {c : Operator} {work : Work} {wait : Wait} {event : wait.Event}
    (h : cancelled? c work wait = some event) : c.Admits work wait event := by
  cases wait with
  | pause token deadline tick =>
    by_cases hc : c.isCancelled work token = true
    · have he : some Alarm.cancelled = some event := by
        rw [← h, cancelled?, if_pos hc]
      cases he
      exact hc
    · have he : none = some event := by
        rw [← h, cancelled?, if_neg hc]
      cases he
  | _ => cases h

theorem cancelled?_answers {s : Store} {c : Operator} {work : Work} {wait : Wait}
    {event : wait.Event} (h : cancelled? c work wait = some event) : s.Answers s wait event := by
  cases wait with
  | pause token deadline tick => rfl
  | _ => cases h

theorem woken?_admits {c : Operator} {work : Work} {wait : Wait} {event : wait.Event}
    (h : woken? c.clock wait = some event) : c.Admits work wait event := by
  cases wait with
  | sleep wake =>
    rw [woken?] at h
    split at h
    · rename_i hdue
      exact hdue
    · cases h
  | _ => cases h

theorem woken?_answers {s : Store} {now : Instant} {wait : Wait} {event : wait.Event}
    (h : woken? now wait = some event) : s.Answers s wait event := by
  cases wait with
  | sleep wake => rfl
  | _ => cases h

theorem looked?_admits {c : Operator} {work : Work} {file : FileState} {wait : Wait}
    {event : wait.Event} (h : looked? file wait = some event) : c.Admits work wait event := by
  cases wait with
  | look => trivial
  | _ => cases h

theorem looked?_answers {s : Store} {file : FileState} {wait : Wait} {event : wait.Event}
    (h : looked? file wait = some event) : s.Answers s wait event := by
  cases wait with
  | look => rfl
  | _ => cases h

theorem refused?_answers {s : Store} {e : ClusterError} {wait : Wait} {event : wait.Event}
    (h : refused? e wait = some event) : s.Answers s wait event := by
  cases wait with
  | call r => exact .inr ⟨⟨e, (Option.some.inj h).symm⟩, rfl⟩
  | _ => cases h

theorem refused?_admits {c : Operator} {work : Work} {e : ClusterError} {wait : Wait}
    {event : wait.Event} (h : refused? e wait = some event) : c.Admits work wait event := by
  cases wait with
  | call r => trivial
  | _ => cases h

/-- A task that waits is given an answer that it may get. -/
theorem given_step {t : Site} {id : Nat} {answer : (work : Work) → Option work.wait.Event}
    {m : Move} {store : Store}
    (ha : ∀ work event, answer work = some event →
      t.operator.Admits work work.wait event ∧ t.store.Answers t.store work.wait event)
    (h : (match t.operator.progress? id with
      | some (.waiting work none) =>
        (answer work).map fun event => (Move.receive id work event, t.store)
      | _ => none) = some (m, store)) : t.Step m ⟨t.operator.next m, store⟩ := by
  split at h
  · rename_i work hw
    obtain ⟨event, hs, he⟩ := Option.map_eq_some_iff.mp h
    cases he
    obtain ⟨hadmits, hanswers⟩ := ha work event hs
    exact ⟨⟨⟨hw, hadmits⟩, rfl⟩, hanswers⟩
  · cases h

/-- The move that an act names is possible. -/
theorem move?_step {t : Site} {a : Act} {m : Move} {store : Store}
    (h : t.move? a = some (m, store)) : t.Step m ⟨t.operator.next m, store⟩ := by
  cases a with
  | install settings retry =>
    cases h
    exact ⟨⟨trivial, rfl⟩, rfl⟩
  | reconcile owner key =>
    cases h
    exact ⟨⟨.reconcile owner key, rfl⟩, rfl⟩
  | update key policy change =>
    cases h
    exact ⟨⟨.update key policy change, rfl⟩, rfl⟩
  | call request =>
    cases h
    exact ⟨⟨.call request, rfl⟩, rfl⟩
  | completion pod period limit token =>
    cases h
    exact ⟨⟨.completion pod period limit token, rfl⟩, rfl⟩
  | seed owner ns =>
    cases h
    exact ⟨⟨.seeding owner ns, rfl⟩, rfl⟩
  | watch owner number token =>
    obtain ⟨d, hd, he⟩ := Option.map_eq_some_iff.mp h
    cases he
    exact ⟨⟨.watcher hd number token, rfl⟩, rfl⟩
  | harvest settings retry token =>
    cases h
    exact ⟨⟨.harvest settings retry token, rfl⟩, rfl⟩
  | shutDown owner | outside change =>
    cases h
    exact ⟨⟨trivial, rfl⟩, rfl⟩
  | pass time =>
    simp only [move?] at h
    split at h
    · rename_i hle
      cases h
      exact ⟨⟨hle, rfl⟩, rfl⟩
    · cases h
  | cancel id =>
    exact given_step (fun _ _ hs => ⟨cancelled?_admits hs, cancelled?_answers hs⟩) h
  | wake id =>
    exact given_step (fun _ _ hs => ⟨woken?_admits hs, woken?_answers hs⟩) h
  | look id file =>
    exact given_step (fun _ _ hs => ⟨looked?_admits hs, looked?_answers hs⟩) h
  | refuse id e =>
    exact given_step (fun _ _ hs => ⟨refused?_admits hs, refused?_answers hs⟩) h
  | serve id stamp =>
    simp only [move?] at h
    split at h
    · rename_i work hw
      obtain ⟨⟨s', event⟩, hs, he⟩ := Option.map_eq_some_iff.mp h
      cases he
      exact ⟨⟨⟨hw, served?_admits hs⟩, rfl⟩, served?_answers hs⟩
    · cases h
  | tick id =>
    exact given_step (fun _ _ hs => ⟨ticked?_admits hs, ticked?_answers hs⟩) h
  | resume id =>
    simp only [move?] at h
    split at h
    · rename_i work event hw
      cases h
      exact ⟨⟨hw, rfl⟩, rfl⟩
    · cases h

theorem act_step (t : Site) (a : Act) : t.Step (t.act a).1 (t.act a).2 := by
  unfold act
  split
  · rename_i m store hm
    exact move?_step hm
  · exact ⟨⟨Nat.le_refl _, rfl⟩, rfl⟩

/-- Every script that is played from a site on is an execution from there. -/
theorem playOn_execution (t : Site) (script : List Act) :
    Execution Step t (t.playOn script).1 (t.playOn script).2 := by
  unfold playOn
  generalize hpast : (([], t) : List (Site × Move) × Site) = past
  have h : Execution Step t past.1 past.2 := by
    rw [← hpast]
    exact .start
  clear hpast
  induction script generalizing past with
  | nil => exact h
  | cons a script ih => exact ih _ (.next h (act_step past.2 a))

theorem play_execution (script : List Act) :
    Execution Step {} (play script).1 (play script).2 :=
  playOn_execution {} script

end Site

/-! ## Runs to play with -/

namespace Sample

def key : ObjectKey := ⟨"ops", "run-1"⟩

/-- The run as a user applies it, with an identity of its own. -/
def run (uid : String) : Run where
  metadata := { ns := "ops", name := "run-1", uid }
  spec := { configMapName := "suite-config" }

def otherKey : ObjectKey := ⟨"ops", "run-2"⟩

def otherRun : Run where
  metadata := { ns := "ops", name := "run-2", uid := "other" }
  spec := { configMapName := "suite-config" }

def settings : ControllerSettings :=
  ⟨"ops", "sidecar", "suite", .ofMillis 1000, .ofMillis 60000, .ofMillis 5000⟩

/-- A controller at a cluster to which the run was applied. -/
def opening (uid : String) : List Act :=
  [.install settings {}, .outside (.applyRun .epoch (run uid))]

/-- A task makes a call and goes on, some times over. -/
def exchanges (id : Nat) (count : Nat) : List Act :=
  (List.replicate count [Act.serve id .epoch, .resume id]).flatten

end Sample

end CertRuns
