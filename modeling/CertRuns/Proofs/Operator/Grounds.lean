import CertRuns.Proofs.Operator.Entries
import CertRuns.Proofs.Operator.Roles
import CertRuns.Proofs.Site.Keys
import CertRuns.Proofs.Site.Script

/-!
# What a final phase rests on

A monitor looks at its pod time and again. It comes to a final phase when a look shows that the
suite has ended, or that the pod is gone, or when its time is over; nothing else takes it there.

* `readings` : what a task has been told about a pod;
* `Settles` : a reply that shows how a run has ended; `inconclusive` : one that does not;
* `Grounds` : what a final phase may rest on;
* `Starts` : a monitor is started, with a deadline; `monitor_start` : every monitor was;
* `Observes` : where a monitor stands; kept by what it is given (`Observes.receive`) and when it
  goes on (`Observes.resume`), and so true of every monitor (`observes`);
* `Grounded` : what a task writes and completes in a move has its grounds; `grounded` : this is so
  of monitors;
* `final_phase_grounded` : without grounds, monitors do nothing.
-/

namespace CertRuns

open Rehearsal (Work)

/-! ## Replies about pods -/

def Wait.reading? (pod : ObjectKey) : (wait : Wait) → wait.Event → Option (Except ClusterError Pod)
  | .call (.getPod key), reply => if key = pod then some reply else none
  | _, _ => none

/-- The run whose status a call is to write. -/
def Wait.writing? : Wait → Option Run
  | .call (.updateRunStatus run) => some run
  | _ => none

/-- The run whose status a task tries to write in a move. -/
def Move.writing? (id : Nat) (m : Move) : Option Run :=
  m.told? id fun work _ => work.wait.writing?

/-- The status of the suite's container, the first one of that name. -/
def Pod.suiteStatus? (p : Pod) : Option ContainerStatus :=
  p.status.bind fun s => s.containers.find? (·.name == Job.suiteContainer)

/-- The code that the suite ended with. There is none without a status of its container, or while
that has not terminated. -/
def Pod.suiteCode? (p : Pod) : Option Int32 :=
  (p.suiteStatus?.bind (·.state.terminated)).map (·.exitCode)

/-- A reply about a pod shows how its run has ended. -/
inductive Settles : Except ClusterError Pod → Phase → Prop
  | succeeded {pod : Pod} (hp : pod.phase = .succeeded) : Settles (.ok pod) .finished
  | passed {pod : Pod} (hp : pod.phase = .failed) (hc : pod.suiteCode? = some 0) :
      Settles (.ok pod) .finished
  | failed {pod : Pod} (hp : pod.phase = .failed) (hc : pod.suiteCode? ≠ some 0) :
      Settles (.ok pod) .error
  | gone {e : ClusterError} (he : e.isNotFound = true) : Settles (.error e) .error

/-- A reply that shows no end: the pod has not come to a final phase, or the look failed and did not
show that the pod is gone. -/
def inconclusive : Except ClusterError Pod → Bool
  | .ok pod => pod.phase != .succeeded && pod.phase != .failed
  | .error e => !e.isNotFound

theorem Settles.inconclusive {reply : Except ClusterError Pod} {phase : Phase}
    (h : Settles reply phase) : inconclusive reply = false := by
  cases h with
  | succeeded hp | passed hp | failed hp => simp [CertRuns.inconclusive, hp]
  | gone he => simp [CertRuns.inconclusive, he]

theorem suiteExitCode_settles {pod : Pod} {phase : Phase} (hpod : pod.phase = .failed)
    (hp : finalPhase? (suiteExitCode pod) = some phase) : Settles (.ok pod) phase := by
  unfold suiteExitCode at hp
  split at hp
  · rename_i hstatus
    cases hp
    refine .failed hpod ?_
    rw [Pod.suiteCode?, show pod.suiteStatus? = none from hstatus]
    nofun
  · rename_i status hstatus
    have hstatus : pod.suiteStatus? = some status := hstatus
    split at hp
    · rename_i hstate
      cases hp
      refine .failed hpod ?_
      rw [Pod.suiteCode?, hstatus, Option.bind_some, hstate]
      nofun
    · rename_i t hstate
      have hcode : pod.suiteCode? = some t.exitCode := by
        rw [Pod.suiteCode?, hstatus, Option.bind_some, hstate, Option.map_some]
      cases hp
      by_cases ht : t.exitCode = 0
      · rw [if_pos ht]
        exact .passed hpod (by rw [hcode, ht])
      · rw [if_neg ht]
        exact .failed hpod (by rw [hcode]; exact fun h => ht (Option.some.inj h))

/-- A wait that goes on after its pause takes a look. -/
theorem CompletionWait.afterPause_going {w w' : CompletionWait} {now : Instant} {alarm : Alarm}
    (h : w.afterPause now alarm = .going w') :
    ∃ ticker, w' = { w with stage := .reading, ticker } := by
  cases alarm with
  | cancelled | deadline => cases h
  | tick =>
    cases h
    exact ⟨_, rfl⟩

/-- A look after which the wait goes on. -/
theorem CompletionWait.afterRead_going {w w' : CompletionWait} {reply : Except ClusterError Pod}
    (h : w.afterRead reply = .going w') : w' = { w with stage := .resting } := by
  cases reply with
  | error e =>
    rw [afterRead] at h
    split at h <;> cases h
    rfl
  | ok pod =>
    rw [afterRead] at h
    split at h <;> cases h
    rfl

/-- A pause that ends the wait of a monitor: its time is over. -/
theorem CompletionWait.afterPause_overdue {w : CompletionWait} {now : Instant} {alarm : Alarm}
    {result : Except MonitorError Int32} {phase : Phase}
    (h : w.afterPause now alarm = .ended result) (hp : finalPhase? result = some phase) :
    alarm = .deadline ∧ phase = .error := by
  cases alarm with
  | tick => cases h
  | cancelled =>
    cases h
    cases hp
  | deadline =>
    cases h
    cases hp
    exact ⟨rfl, rfl⟩

/-- A look that ends the wait of a monitor settles the phase. -/
theorem CompletionWait.afterRead_settles {w : CompletionWait} {reply : Except ClusterError Pod}
    {result : Except MonitorError Int32} {phase : Phase} (hw : w.afterRead reply = .ended result)
    (hp : finalPhase? result = some phase) : Settles reply phase := by
  cases reply with
  | error e =>
    rw [afterRead] at hw
    split at hw
    · rename_i he
      cases hw
      cases hp
      exact .gone he
    · cases hw
  | ok pod =>
    rw [afterRead] at hw
    split at hw
    · rename_i hpod
      cases hw
      cases hp
      exact .succeeded hpod
    · rename_i hpod
      cases hw
      exact suiteExitCode_settles hpod hp
    · cases hw

/-- The monitor that a reconciliation starts counts its time from now. -/
theorem Reconcile.Resumes.monitor_eq {d d' : Controller} {now : Instant} {key : ObjectKey}
    {stage : Reconcile.Stage} {event : (Reconcile.mk key stage).wait.Event}
    {result : Except ClusterError Outcome} {m : Monitor}
    (h : Reconcile.Resumes d now key stage event d' (.ended result (some m))) :
    ∃ run pod token, m = .start d now run pod token := by
  cases h with
  | @adopt run _ pod =>
    have hsettings : (d.sawPodName pod.name).settings = d.settings := by
      unfold Controller.sawPodName
      split <;> rfl
    refine ⟨run, pod, ⟨d.tokens⟩, ?_⟩
    rw [Monitor.start, Monitor.start, show (d.sawPodName pod.name).mint.1.settings = d.settings from
      hsettings]
  | recorded => exact ⟨_, _, _, rfl⟩

/-! ## Grounds -/

/-- What a final phase may rest on at `now`. -/
inductive Grounds (readings : List (Except ClusterError Pod)) (deadline now : Instant) :
    Phase → Prop
  /-- A look has shown it. -/
  | shown {reply : Except ClusterError Pod} {phase : Phase} (hr : reply ∈ readings)
      (hs : Settles reply phase) : Grounds readings deadline now phase
  /-- The time is over. -/
  | overdue (hd : deadline.nanos ≤ now.nanos) : Grounds readings deadline now .error

theorem Grounds.mono {readings readings' : List (Except ClusterError Pod)}
    {deadline now now' : Instant} {phase : Phase} (h : Grounds readings deadline now phase)
    (hr : ∀ reply ∈ readings, reply ∈ readings') (hn : now.nanos ≤ now'.nanos) :
    Grounds readings' deadline now' phase := by
  cases h with
  | shown hm hs => exact .shown (hr _ hm) hs
  | overdue hd => exact .overdue (Nat.le_trans hd hn)

/-- Without a conclusive look there are no grounds before the deadline. -/
theorem Grounds.false_of_inconclusive {readings : List (Except ClusterError Pod)}
    {deadline now : Instant} {phase : Phase} (h : Grounds readings deadline now phase)
    (hr : ∀ reply ∈ readings, inconclusive reply = true) (hn : now.nanos < deadline.nanos) :
    False := by
  cases h with
  | shown hm hs =>
    have := hr _ hm
    rw [hs.inconclusive] at this
    cases this
  | overdue hd => omega

namespace Operator

variable {c c' : Operator} {m : Move} {history : List (Operator × Move)} {id owner : Nat}
  {key pod : ObjectKey}

/-- What a task has been told about a pod, the last reply first. -/
def readings (id : Nat) (pod : ObjectKey) (history : List (Operator × Move)) :
    List (Except ClusterError Pod) :=
  (told id (fun work event => work.wait.reading? pod event) history).map (·.2)

theorem readings_append (later earlier : List (Operator × Move)) :
    readings id pod (later ++ earlier) = readings id pod later ++ readings id pod earlier := by
  rw [readings, told_append, List.map_append]
  rfl

theorem mem_readings_cons {reply : Except ClusterError Pod} (h : reply ∈ readings id pod history) :
    reply ∈ readings id pod ((c, m) :: history) := by
  rw [← List.singleton_append, readings_append]
  exact List.mem_append_right _ h

theorem mem_readings_receive {work : Work} {event : work.wait.Event}
    {reply : Except ClusterError Pod} (h : work.wait.reading? pod event = some reply) :
    reply ∈ readings id pod ((c, .receive id work event) :: history) := by
  rw [readings, told_cons, Move.told?_receive, h]
  exact List.mem_cons_self

theorem Step.clock_le (h : c.Step m c') : c.clock.nanos ≤ c'.clock.nanos := by
  obtain ⟨he, rfl⟩ := h
  cases m with
  | pass time => exact he
  | _ => exact Nat.le_refl _

/-! ## Where a monitor stands -/

/-- Where a task stands that was started to monitor a pod, with the wait `w`. Its deadline never
changes, and once it has a final phase there are grounds for it. -/
inductive Observes (w : CompletionWait) (readings : List (Except ClusterError Pod))
    (now : Instant) : (work : Work) → Option work.wait.Event → Prop
  /-- It waits for its next look. -/
  | resting {owner : Nat} {key : ObjectKey} {limit : Duration} {token : Token} {ticker : Ticker}
      {answer : Option Alarm} (ha : answer = some .deadline → w.deadline.nanos ≤ now.nanos) :
      Observes w readings now
        (.monitor owner ⟨key, .waiting ⟨w.pod, limit, w.deadline, token, ticker, .resting⟩⟩) answer
  /-- It has panicked at its start. -/
  | panicked {owner : Nat} {key : ObjectKey} {limit : Duration} {token : Token} {ticker : Ticker} :
      Observes w readings now
        (.monitor owner ⟨key, .waiting ⟨w.pod, limit, w.deadline, token, ticker, .panicked⟩⟩) none
  /-- It looks at its pod. -/
  | reading {owner : Nat} {key : ObjectKey} {limit : Duration} {token : Token} {ticker : Ticker}
      {answer : Option (Except ClusterError Pod)}
      (ha : ∀ reply, answer = some reply → reply ∈ readings) :
      Observes w readings now
        (.monitor owner ⟨key, .waiting ⟨w.pod, limit, w.deadline, token, ticker, .reading⟩⟩) answer
  /-- It writes the final phase. -/
  | recording {owner : Nat} {key : ObjectKey} {u : StatusUpdate} {answer : Option u.wait.Event}
      {phase : Phase} (hg : Grounds readings w.deadline now phase)
      (hc : ∀ s, (u.change s).phase = phase)
      (hw : ∀ run, u.stage = .writing run → run.status.phase = phase) :
      Observes w readings now (.monitor owner ⟨key, .recording u⟩) answer

namespace Observes

variable {w : CompletionWait} {readings readings' : List (Except ClusterError Pod)}
  {now now' : Instant} {work work' : Work}

theorem mono {answer : Option work.wait.Event} (h : Observes w readings now work answer)
    (hr : ∀ reply ∈ readings, reply ∈ readings') (hn : now.nanos ≤ now'.nanos) :
    Observes w readings' now' work answer := by
  cases h with
  | resting ha => exact .resting fun h => Nat.le_trans (ha h) hn
  | panicked => exact .panicked
  | reading ha => exact .reading fun reply h => hr reply (ha reply h)
  | recording hg hc hw => exact .recording (hg.mono hr hn) hc hw

/-- A monitor that is about to start pauses, or has panicked. -/
theorem start {owner : Nat} {key : ObjectKey} (hw : w.stage ≠ .reading) :
    Observes w readings now (.monitor owner ⟨key, .waiting w⟩) none := by
  obtain ⟨pod, limit, deadline, token, ticker, stage⟩ := w
  cases stage with
  | resting => exact .resting nofun
  | reading => exact absurd rfl hw
  | panicked => exact .panicked

theorem receive {event : work.wait.Event} (h : Observes w readings c.clock work none)
    (ha : c.Admits work work.wait event) (hr : ∀ reply ∈ readings, reply ∈ readings')
    (hnew : ∀ reply, work.wait.reading? w.pod event = some reply → reply ∈ readings') :
    Observes w readings' c.clock work (some event) := by
  cases h with
  | resting =>
    refine .resting fun h => ?_
    cases h
    obtain ⟨time, ht, hle⟩ := ha
    cases ht
    exact hle
  | panicked => exact event.elim
  | reading =>
    refine .reading fun reply h => ?_
    cases h
    exact hnew _ (if_pos rfl)
  | recording hg hc hw => exact .recording (hg.mono hr (Nat.le_refl _)) hc hw

theorem resume {cs : List Controller} {event : work.wait.Event}
    (h : Observes w readings now work (some event)) (hg : Goes cs now work event work') :
    Observes w readings now work' none := by
  cases h with
  | resting ha =>
    cases hg with
    | monitor hd hr =>
      cases hr with
      | waiting hw =>
        obtain ⟨ticker, rfl⟩ := CompletionWait.afterPause_going hw
        exact .reading fun _ h => by cases h
      | finished hw hp =>
        obtain ⟨rfl, rfl⟩ := CompletionWait.afterPause_overdue hw hp
        exact .recording (.overdue (ha rfl)) (fun _ => rfl) fun _ h => by cases h
  | reading ha =>
    cases hg with
    | monitor hd hr =>
      cases hr with
      | waiting hw =>
        obtain rfl := CompletionWait.afterRead_going hw
        exact .resting nofun
      | finished hw hp =>
        exact .recording (.shown (ha _ rfl) (CompletionWait.afterRead_settles hw hp)) (fun _ => rfl)
          fun _ h => by cases h
  | @recording owner key u _ phase hground hc hw =>
    cases hg with
    | monitor hd hr =>
      cases hr with
      | @recording _ u' _ hu =>
        refine .recording hground (fun s => ?_) (fun run hs => ?_)
        · rw [StatusUpdate.change_going hu]
          exact hc s
        · -- only a change that has read its run goes on to write
          cases StatusUpdate.resumes hu with
          | read =>
            cases hs
            exact hc _
          | overtaken | rested => cases hs
          | paused | drawn => exact absurd hs (StatusUpdate.Stage.rest_ne_writing _ _ _)

end Observes

/-! ## Every monitor -/

theorem clock_le (h : Execution Step c history c') : c.clock.nanos ≤ c'.clock.nanos := by
  induction h with
  | start => exact Nat.le_refl _
  | next _ last ih => exact Nat.le_trans ih last.clock_le

theorem origin_later (h : Execution Step c history c') {t : Thread} (ht : c.threads[id]? = some t) :
    ∃ t', c'.threads[id]? = some t' ∧ t'.origin = t.origin := by
  induction h with
  | start => exact ⟨t, ht, rfl⟩
  | next _ last ih =>
    obtain ⟨s, hs, ho⟩ := ih
    obtain ⟨s', hs', ho', _⟩ := last.origin hs
    exact ⟨s', hs', ho'.trans ho⟩

/-- In this move a controller starts a task to monitor the pod of a run, until a deadline that is
counted from this move. -/
structure Starts (id owner : Nat) (run : Run) (pod : ObjectKey) (deadline : Instant)
    (moment : Operator × Move) : Prop where
  fresh : moment.1.threads[id]? = none
  begun : ∃ d token, moment.1.controllers[owner]? = some d ∧
    deadline = moment.1.clock.add (runTimeout run.spec.timeout d.settings.defaultTimeout) ∧
    (moment.1.next moment.2).progress? id =
      some (.waiting (.monitor owner (.start d moment.1.clock run pod token)) none)

theorem monitor_start (h : Execution Step {} history c) {t : Thread}
    (ht : c.threads[id]? = some t) (hr : t.origin.role = .monitor owner key) :
    ∃ w run, run.key = key ∧ t.origin = .monitor owner ⟨key, .waiting w⟩ ∧
      ∃ moment ∈ history, Starts id owner run w.pod w.deadline moment := by
  induction h generalizing t with
  | start => cases ht
  | @next history s s' m before last ih =>
    cases hs : s.threads[id]? with
    | some t₀ =>
      obtain ⟨t', ht', ho, _⟩ := last.origin hs
      rw [ht] at ht'
      cases ht'
      rw [ho] at hr ⊢
      obtain ⟨w, run, hkey, horigin, moment, hm, hstarts⟩ := ih hs hr
      exact ⟨w, run, hkey, horigin, moment, List.mem_cons_of_mem _ hm, hstarts⟩
    | none =>
      cases last.comes ht with
      | kept _ h | received h | resumed h =>
        rw [hs] at h
        cases h
      | started _ hw h =>
        subst h
        cases hw <;> cases hr
      | @spawned i t₀ work new event _ _ _ hn h =>
        have hbegun : (s.next (.resume i work event)).progress? id = some (.waiting new none) := by
          rw [← last.2]
          exact progress?_eq_some.mpr ⟨t, ht, by rw [h]; rfl⟩
        subst h
        cases spawns hn with
        | event => cases hr
        | monitor hd hr' =>
          obtain ⟨run, pod, token, rfl⟩ := hr'.monitor_eq
          cases hr
          exact ⟨_, run, rfl, rfl, _, List.mem_cons_self, hs, _, token, hd, rfl, hbegun⟩

theorem observes (h : Execution Step {} history c) {t : Thread} (ht : c.threads[id]? = some t)
    {w : CompletionWait} (ho : t.origin = .monitor owner ⟨key, .waiting w⟩) {work : Work}
    {answer : Option work.wait.Event} (hw : t.progress = .waiting work answer) :
    Observes w (readings id w.pod history) c.clock work answer := by
  induction h generalizing t work with
  | start => cases ht
  | @next history s s' m before last ih =>
    have hr : ∀ reply ∈ readings id w.pod history, reply ∈ readings id w.pod ((s, m) :: history) :=
      fun _ => mem_readings_cons
    cases last.comes ht with
    | kept _ hs => exact (ih hs ho hw).mono hr last.clock_le
    | received hs hp ha he =>
      subst he
      cases hw
      exact ((ih hs ho hp).receive ha hr fun _ => mem_readings_receive).mono (fun _ h => h)
        last.clock_le
    | @resumed t₀ old event hs hp he =>
      subst he
      generalize hn : (old.resume _ _ event).next = next at hw ho
      cases next with
      | ended result => cases hw
      | going new =>
        cases hw
        exact ((ih hs ho hp).resume (goes hn)).mono hr last.clock_le
    | started _ hm he =>
      subst he
      cases ho
      cases hm
    | spawned _ _ _ hn he =>
      subst he
      cases hw
      cases ho
      cases spawns hn with
      | monitor hd hr' =>
        obtain ⟨run, pod, token, h⟩ := hr'.monitor_eq
        cases h
        exact .start (CompletionWait.Stage.first_ne_reading _ _)

/-! ## Final phases -/

/-- The run is completed in the tracker of a controller. -/
def completed (c : Operator) (owner : Nat) (key : ObjectKey) : Bool :=
  (c.tracked? owner key).any (·.state == .completed)

/-- A run is completed in this move. -/
def completes (owner : Nat) (key : ObjectKey) (moment : Operator × Move) : Bool :=
  !completed moment.1 owner key && completed (moment.1.next moment.2) owner key

/-- What a task that observes a pod asks the cluster to write is a phase that has its grounds. -/
theorem Observes.writing {w : CompletionWait} {readings : List (Except ClusterError Pod)}
    {now : Instant} {work : Work} {answer : Option work.wait.Event}
    (h : Observes w readings now work answer) {run : Run} (hw : work.wait.writing? = some run) :
    Grounds readings w.deadline now run.status.phase := by
  cases h with
  | resting | reading | panicked => cases hw
  | @recording _ _ u _ phase hg _ hrun =>
    obtain ⟨k, change, policy, attempt, stage⟩ := u
    cases stage with
    | reading | drawing | resting | panicked => cases hw
    | writing r =>
      cases hw
      rw [hrun _ rfl]
      exact hg

/-- A run is completed by its monitor only, and at the end of its write. -/
theorem Step.completes_recording (h : c.Step m c') (hown : OwnClaims c)
    (hc : completes owner key (c, m) = true) :
    ∃ (i : Nat) (u : StatusUpdate) (event : u.wait.Event),
      m = .resume i (.monitor owner ⟨key, .recording u⟩) event := by
  obtain ⟨hbefore, hafter⟩ := Bool.and_eq_true_iff.mp hc
  rw [show c.next m = c' from h.2.symm] at hafter
  unfold completed at hbefore hafter
  cases h.alters hown owner key with
  | same hentry =>
    rw [hentry] at hafter
    rw [hafter] at hbefore
    cases hbefore
  | claimed _ hentry | committed _ _ _ hentry | removed _ hentry | released _ _ _ hentry =>
    rw [hentry] at hafter
    cases hafter
  | completed => exact ⟨_, _, _, rfl⟩

/-- What a task writes and completes in a move has its grounds in what the task was told before and
in its deadline. -/
structure Grounded (id owner : Nat) (key pod : ObjectKey) (deadline : Instant)
    (earlier : List (Operator × Move)) (moment : Operator × Move) : Prop where
  written {run : Run} (h : moment.2.writing? id = some run) :
    Grounds (readings id pod earlier) deadline moment.1.clock run.status.phase
  completed {o : Nat} {k : ObjectKey} (hm : moment.2.subject? = some id)
    (h : completes o k moment = true) :
    o = owner ∧ k = key ∧ ∃ phase, Grounds (readings id pod earlier) deadline moment.1.clock phase

theorem Step.grounded (h : Execution Step {} history c) (hs : c.Step m c') {w : CompletionWait}
    (ho : ∀ t, c.threads[id]? = some t → t.origin = .monitor owner ⟨key, .waiting w⟩) :
    Grounded id owner key w.pod w.deadline history (c, m) := by
  have stands {work : Work} {answer : Option work.wait.Event}
      (hp : c.progress? id = some (.waiting work answer)) :
      Observes w (readings id w.pod history) c.clock work answer ∧
        work.role = .monitor owner key := by
    obtain ⟨t, ht, hp⟩ := progress?_eq_some.mp hp
    refine ⟨observes h ht (ho t ht) hp, ?_⟩
    rw [role_eq_origin h ht hp, ho t ht]
    rfl
  constructor
  · intro run hw
    obtain ⟨work, event, rfl, hwriting⟩ := Move.told?_eq_some hw
    exact (stands hs.1.1).1.writing hwriting
  · intro o k hsubject hc
    obtain ⟨i, u, event, rfl⟩ := hs.completes_recording (ownClaims h) hc
    cases hsubject
    obtain ⟨hobserves, hrole⟩ := stands hs.1
    cases hrole
    cases hobserves with
    | recording hg => exact ⟨rfl, rfl, _, hg⟩

theorem grounded {later earlier : List (Operator × Move)} {moment : Operator × Move}
    (h : Execution Step {} (later ++ moment :: earlier) c) {t : Thread}
    (ht : c.threads[id]? = some t) {w : CompletionWait}
    (ho : t.origin = .monitor owner ⟨key, .waiting w⟩) :
    Grounded id owner key w.pod w.deadline earlier moment := by
  obtain ⟨c₂, hbefore, hstep, hafter⟩ := h.split
  refine hstep.grounded hbefore fun t₁ ht₁ => ?_
  obtain ⟨t', ht', ho'⟩ := origin_later ((Execution.next .start hstep).trans hafter) ht₁
  rw [ht] at ht'
  cases ht'
  exact ho'.symm.trans ho

/-- Without a conclusive look, and before its deadline, a monitor has no grounds for anything. -/
theorem Grounded.idle {later earlier : List (Operator × Move)} {moment : Operator × Move}
    (h : Execution Step {} (later ++ moment :: earlier) c) {deadline : Instant}
    (hg : Grounded id owner key pod deadline earlier moment)
    (hr : ∀ reply ∈ readings id pod (later ++ moment :: earlier), inconclusive reply = true)
    (hn : c.clock.nanos < deadline.nanos) :
    moment.2.writing? id = none ∧
      ∀ o k, moment.2.subject? = some id → completes o k moment = false := by
  obtain ⟨c₂, hbefore, hstep, hafter⟩ := h.split
  have baseless {phase : Phase}
      (hg : Grounds (readings id pod earlier) deadline moment.1.clock phase) : False := by
    refine hg.false_of_inconclusive (fun reply hreply => hr reply ?_) ?_
    · rw [readings_append]
      exact List.mem_append_right _ (mem_readings_cons hreply)
    · have := hstep.clock_le
      have := clock_le hafter
      omega
  constructor
  · cases hw : moment.2.writing? id with
    | none => rfl
    | some run => exact (baseless (hg.written hw)).elim
  · intro o k hsubject
    cases hc : completes o k moment with
    | false => rfl
    | true =>
      obtain ⟨_, _, phase, hphase⟩ := hg.completed hsubject hc
      exact (baseless hphase).elim

/-- Monitors write final phases and complete runs on good grounds only: one of their own looks at
the pod has shown how the run ended, or the time is over that is counted from the start of the
monitor. Cancellations are no grounds, and neither are looks that show no end. -/
theorem final_phase_grounded (h : Execution Step {} history c)
    (hm : c.role? id = some (.monitor owner key)) :
    ∃ run pod deadline, run.key = key ∧
      (∃ first ∈ history, Starts id owner run pod deadline first) ∧
      (∀ later earlier moment, history = later ++ moment :: earlier →
        Grounded id owner key pod deadline earlier moment) ∧
      ((∀ reply ∈ readings id pod history, inconclusive reply = true) →
        c.clock.nanos < deadline.nanos → ∀ moment ∈ history, moment.2.writing? id = none ∧
          ∀ o k, moment.2.subject? = some id → completes o k moment = false) := by
  obtain ⟨t, ht, hrole⟩ := Option.map_eq_some_iff.mp hm
  obtain ⟨w, run, hkey, ho, hfirst⟩ := monitor_start h ht hrole
  refine ⟨run, w.pod, w.deadline, hkey, hfirst, ?_, ?_⟩
  · rintro later earlier moment rfl
    exact grounded h ht ho
  · intro hr hn moment hmem
    obtain ⟨later, earlier, rfl⟩ := List.append_of_mem hmem
    exact (grounded h ht ho).idle h hr hn

/-- The first look of a monitor fails and the second one finds the pod still pending. At the third
one the pod has failed, without a word about the suite. -/
def troubled : List (Site × Move) × Site :=
  Site.play (Sample.opening "first" ++ (.reconcile 0 Sample.key :: Sample.exchanges 0 6) ++
    [.tick 1, .resume 1, .refuse 1 (.api 500 "etcd"), .resume 1, .pass ⟨1000000000⟩, .tick 1,
      .resume 1, .serve 1 .epoch, .resume 1,
      .outside (.setPodStatus ⟨"ops", "cnf-job-run-1"⟩ { phase := .failed }), .pass ⟨2000000000⟩,
      .tick 1, .resume 1] ++ Sample.exchanges 1 3)

/-- The monitor has written that the run ended in an error, and has completed it. -/
theorem final_phase_grounded_troubled :
    let history := Site.operatorHistory troubled.1
    (readings 1 ⟨"ops", "cnf-job-run-1"⟩ history).map inconclusive = [false, true, true] ∧
      history.filterMap (fun moment => (moment.2.writing? 1).map (·.status.phase)) = [.error] ∧
      completed troubled.2.operator 0 Sample.key = true ∧
      Execution Step {} history troubled.2.operator ∧
      troubled.2.operator.role? 1 = some (.monitor 0 Sample.key) ∧
      ∃ run pod deadline, run.key = Sample.key ∧
        (∃ first ∈ history, Starts 1 0 run pod deadline first) ∧
        (∀ later earlier moment, history = later ++ moment :: earlier →
          Grounded 1 0 Sample.key pod deadline earlier moment) ∧
        ((∀ reply ∈ readings 1 pod history, inconclusive reply = true) →
          troubled.2.operator.clock.nanos < deadline.nanos →
          ∀ moment ∈ history, moment.2.writing? 1 = none ∧
            ∀ o k, moment.2.subject? = some 1 → completes o k moment = false) := by
  have h : Execution Step {} (Site.operatorHistory troubled.1) troubled.2.operator :=
    Site.operator_execution (Site.play_execution _)
  have hm : troubled.2.operator.role? 1 = some (.monitor 0 Sample.key) := by decide +kernel
  exact ⟨by decide +kernel, by decide +kernel, by decide +kernel, h, hm, final_phase_grounded h hm⟩

end Operator

end CertRuns
