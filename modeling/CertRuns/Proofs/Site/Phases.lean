import CertRuns.Proofs.Operator.Composes
import CertRuns.Proofs.Run.Course
import CertRuns.Proofs.Site.Creations
import CertRuns.Proofs.Site.Presence
import CertRuns.Proofs.Site.StatusWrites
import CertRuns.Proofs.Site.Tended

/-!
# The phases that a controller writes

One task at a time tends a run, and where it stands says how far the run has come. So the phases
that a controller writes for a run come in order, whatever happens in between: other reconciliations
of the run, conflicts, pods that are rejected, reads and writes that fail, and writes of others.

* `Work.Fits` : how far a run may have come that a task tends;
* `Move.posts?`, `phases` : the statuses of a run that a controller writes, and their phases;
* `Ordered` : every task that tends the run fits; kept by a move that writes none of these statuses
  (`Ordered.kept`), taken on by the phase of one that does (`Ordered.posted`); `ordered`;
* `created` : the pod that a reconciliation records is one that it has created;
* `phases_in_order` : what the phases are that a controller writes for a run that stays.
-/

namespace CertRuns

open Rehearsal (Work)

/-! ## How far runs have come that are tended -/

/-- How far a run may have come that a task tends, before and after the change that the task makes
is written. -/
def Rehearsal.Work.Fits (course : Course) (written : Bool) : Work → Prop
  | .reconcile _ _ ⟨_, .inspecting ..⟩ => course.fresh = true
  | .reconcile _ _ ⟨_, .announcing ..⟩ =>
    if written then course = .deploying else course.fresh = true
  | .reconcile _ _ ⟨_, .creating ..⟩ => course = .deploying
  | .reconcile _ _ ⟨_, .excusing ..⟩ => course = if written then .idle else .deploying
  | .reconcile _ _ ⟨_, .recording ..⟩ => course = if written then .running else .deploying
  | .monitor _ ⟨_, .waiting _⟩ => course ≠ .ended
  | .monitor _ ⟨_, .recording _⟩ => if written then course = .ended else course ≠ .ended
  | _ => True

namespace Rehearsal.Work.Fits

variable {course : Course} {owner : Nat} {told : Option Nat} {key : ObjectKey} {now : Instant}

/-- The write of a task that tends a run takes the run on. -/
theorem write {work : Work} {event : work.wait.Event} {u : StatusUpdate} {stored : Run}
    (h : work.Fits course false) (hcomposes : work.Composes) (htends : work.tends owner key = true)
    (hw : work.written? (some event) = some (u, stored)) (s : RunStatus) :
    ∃ course', course.next? (u.change s).phase = some course' ∧ work.Fits course' true := by
  cases hcomposes.writes hw s with
  | update | harvest => cases htends
  | announcing hs =>
    rw [hs]
    cases course with
    | idle | deploying => exact ⟨.deploying, rfl, rfl⟩
    | running | ended => cases h
  | excusing hs =>
    rw [hs]
    obtain rfl : course = .deploying := h
    exact ⟨.idle, rfl, rfl⟩
  | recording _ hs =>
    rw [hs]
    obtain rfl : course = .deploying := h
    exact ⟨.running, rfl, rfl⟩
  | monitor hphase hs =>
    rw [hs]
    exact ⟨.ended, Course.next?_of_terminal h hphase, rfl⟩

/-- A reconciliation that goes on tending its run, or begins to. -/
theorem goes {d d' : Controller} {stage : Reconcile.Stage}
    {event : (Reconcile.mk key stage).wait.Event} {r : Reconcile}
    (hr : Reconcile.Resumes d now key stage event d' (.going r))
    (h : stage.busy = true → (Work.reconcile owner told ⟨key, stage⟩).Fits course
      ((Work.reconcile owner told ⟨key, stage⟩).written? (some event)).isSome)
    (hfree : d.tracker.runs.get? key = none → course.fresh = true) :
    (Work.reconcile owner told r).Fits course false := by
  unfold written? updating? at h
  cases hr with
  | inspect hentry | announce hentry => exact hfree hentry
  | redeploy => exact h rfl
  | announcing hu | excusing hu | recording hu =>
    have h := h rfl
    simp only [Option.bind_some, Updating.written?_of_going hu, Option.map_none,
      Option.isSome_none] at h
    exact h
  | deploy hu | unbuilt hu =>
    have h := h rfl
    simp only [Option.bind_some, Updating.written?_of_ended hu, Option.map_some,
      Option.isSome_some] at h
    exact h
  | commit | rejected => exact h rfl
  | cleaning | adoptLate | commitLate => trivial

theorem follows {d d' : Controller} {stage : Monitor.Stage}
    {event : (Monitor.mk key stage).wait.Event} {r : Monitor}
    (hr : Monitor.Resumes d now key stage event d' (.going r))
    (h : (Work.monitor owner ⟨key, stage⟩).Fits course
      ((Work.monitor owner ⟨key, stage⟩).written? (some event)).isSome) :
    (Work.monitor owner r).Fits course false := by
  unfold written? updating? at h
  cases hr with
  | waiting | finished => exact h
  | recording hu =>
    simp only [Option.bind_some, Updating.written?_of_going hu, Option.map_none,
      Option.isSome_none] at h
    exact h

/-- The monitor that a reconciliation starts. -/
theorem spawns {d d' : Controller} {stage : Reconcile.Stage}
    {event : (Reconcile.mk key stage).wait.Event} {result : Except ClusterError Outcome}
    {m : Monitor} (hr : Reconcile.Resumes d now key stage event d' (.ended result (some m)))
    {written : Bool} (h : (Work.reconcile owner told ⟨key, stage⟩).Fits course written) :
    (Work.monitor owner m).Fits course false := by
  cases hr with
  | adopt =>
    rintro rfl
    cases h
  | recorded =>
    rintro rfl
    cases written <;> cases h

/-- A run that is claimed may still get a pod. -/
theorem fresh_of_claim? {stage : Reconcile.Stage} {claim : RunClaim}
    (hc : stage.claim? = some claim) {written : Bool}
    (h : (Work.reconcile owner told ⟨key, stage⟩).Fits course written) : course.fresh = true := by
  cases stage with
  | fetching | recording | deleting => cases hc
  | inspecting => exact h
  | announcing =>
    cases written with
    | false => exact h
    | true =>
      obtain rfl : course = .deploying := h
      rfl
  | creating =>
    obtain rfl : course = .deploying := h
    rfl
  | excusing => cases written <;> (cases h; rfl)

end Rehearsal.Work.Fits

/-! ## What a controller writes -/

/-- Is it the role of a task of the controller for the run? -/
def Role.serves (owner : Nat) (key : ObjectKey) : Role → Bool
  | .reconciler o k => o == owner && k == key
  | .monitor o k => o == owner && k == key
  | .other => false

/-- The run that a controller stores in a move with a new status, and the task that does so. -/
def Move.posts? (owner : Nat) (key : ObjectKey) : Move → Option (Nat × Run)
  | .receive id work event =>
    if work.role.serves owner key then
      (work.written? (some event)).map fun write => (id, write.2)
    else none
  | _ => none

/-- The name of the pod that a reconciliation has created. -/
def Rehearsal.Work.created? : (work : Work) → Option work.wait.Event → Option String
  | .reconcile _ _ ⟨_, .creating _ _ podName _⟩, some (.ok _) => some podName
  | .reconcile _ _ ⟨_, .recording _ podName _ _⟩, _ => some podName
  | _, _ => none

/-- The pod that a task creates in a move. -/
def Move.creation? (id : Nat) : Move → Option ObjectKey
  | .receive i work event => if i = id then work.wait.creation? event else none
  | _ => none

theorem Move.posts?_eq_some {m : Move} {owner id : Nat} {key : ObjectKey} {stored : Run}
    (h : m.posts? owner key = some (id, stored)) :
    ∃ (work : Work) (event : work.wait.Event) (u : StatusUpdate), m = .receive id work event ∧
      work.role.serves owner key = true ∧ work.written? (some event) = some (u, stored) := by
  cases m with
  | receive i work event =>
    rw [posts?] at h
    split at h
    · rename_i hserves
      obtain ⟨⟨u, run⟩, hw, hpair⟩ := Option.map_eq_some_iff.mp h
      cases hpair
      exact ⟨work, event, u, rfl, hserves, hw⟩
    · cases h
  | _ => cases h

/-- A task of the controller that writes tends the run. -/
theorem Rehearsal.Work.tends_of_written {work : Work} {event : work.wait.Event} {owner : Nat}
    {key : ObjectKey} {write : StatusUpdate × Run} (hserves : work.role.serves owner key = true)
    (hw : work.written? (some event) = some write) : work.tends owner key = true := by
  obtain ⟨u, stored⟩ := write
  obtain ⟨_, hu, _⟩ := written?_eq_some hw
  cases work with
  | reconcile o told r =>
    obtain ⟨k, stage⟩ := r
    cases stage with
    | announcing | excusing | recording =>
      simpa [tends, role, Role.serves, Reconcile.Stage.busy] using hserves
    | _ => cases hu
  | monitor o r => exact hserves
  | _ => cases hserves

theorem Rehearsal.Work.serves_of_tends {work : Work} {owner : Nat} {key : ObjectKey}
    (h : work.tends owner key = true) : work.role.serves owner key = true := by
  cases work with
  | reconcile o told r => exact (Bool.and_eq_true_iff.mp h).1
  | monitor o r => exact h
  | _ => cases h

theorem Rehearsal.Work.tends_of_created? {work : Work} {answer : Option work.wait.Event}
    {owner : Nat} {key : ObjectKey} {podName : String} (hr : work.role = .reconciler owner key)
    (hc : work.created? answer = some podName) : work.tends owner key = true := by
  cases work with
  | reconcile o told r =>
    obtain ⟨k, stage⟩ := r
    cases hr
    cases stage with
    | creating | recording => simp [tends, Reconcile.Stage.busy]
    | _ => cases hc
  | _ => cases hr

namespace Site

variable {t t' : Site} {m : Move} {early history : List (Site × Move)} {owner id : Nat}
  {key : ObjectKey} {course : Course}

/-- The phases that a controller has written for a run, the first one first. -/
def phases (owner : Nat) (key : ObjectKey) (history : List (Site × Move)) : List Phase :=
  (history.reverse.filterMap (·.2.posts? owner key)).map (·.2.status.phase)

theorem phases_cons : phases owner key ((t, m) :: history) =
    phases owner key history ++ (m.posts? owner key).toList.map (·.2.status.phase) := by
  rw [phases, phases, List.reverse_cons, List.filterMap_append, List.map_append]
  cases h : m.posts? owner key with
  | none => simp [h]
  | some => simp [h]

/-- What a controller stores with a new status comes from the change of one of its tasks. -/
theorem status_posted (h : Execution Step {} history t) (hs : t.Step m t') {stored : Run}
    (hpost : m.posts? owner key = some (id, stored)) :
    ∃ (work : Work) (event : work.wait.Event) (u : StatusUpdate) (status : RunStatus),
      m = .receive id work event ∧ work.role.serves owner key = true ∧
        work.written? (some event) = some (u, stored) ∧ stored.status = u.change status := by
  obtain ⟨work, event, u, rfl, hserves, hw⟩ := Move.posts?_eq_some hpost
  have hwrite : (Move.receive id work event).write? id = some (u, stored) := by
    rw [Move.write?, if_pos rfl, hw]
  obtain ⟨before, _, hstored, _⟩ := write_stored h hs hwrite
  exact ⟨work, event, u, before.status, rfl, hserves, hw, congrArg Run.status hstored⟩

/-! ## The invariant -/

/-- One task at most tends the run; how far the run has come fits it, and lets the run be claimed if
it has no entry. -/
structure Ordered (owner : Nat) (key : ObjectKey) (course : Course) (t : Site) : Prop where
  tended : Tended owner key t
  fits {id : Nat} {work : Work} {answer : Option work.wait.Event}
    (hw : t.operator.progress? id = some (.waiting work answer))
    (htends : work.tends owner key = true) : work.Fits course (work.written? answer).isSome
  fresh (hn : t.operator.tracked? owner key = none) : course.fresh = true

theorem Ordered.fits_kept (ho : Ordered owner key course t) (h : Execution Step {} history t)
    (hs : t.Step m t') (hnone : m.posts? owner key = none) {work : Work}
    {answer : Option work.wait.Event}
    (hw : t'.operator.progress? id = some (.waiting work answer))
    (htends : work.tends owner key = true) : work.Fits course (work.written? answer).isSome := by
  cases hs.1.waits hw with
  | kept _ hbefore => exact ho.fits hbefore htends
  | @received event hbefore _ he =>
    subst he
    have hfits := ho.fits hbefore htends
    have hsilent : work.written? (some event) = none := by
      rw [Move.posts?, if_pos (Work.serves_of_tends htends)] at hnone
      exact Option.map_eq_none_iff.mp hnone
    rwa [hsilent, ← Work.written?_none work]
  | resumed hbefore hg he =>
    subst he
    rw [Work.written?_none, Option.isSome_none]
    cases hg with
    | @reconcile o told k stage event d d' _ r hd hr =>
      obtain ⟨⟨rfl, hkey⟩, _⟩ : (o = owner ∧ r.key = key) ∧ r.stage.busy = true := by
        simpa [Work.tends] using htends
      obtain rfl : k = key := hr.key_going.symm.trans hkey
      refine Work.Fits.goes hr (fun hb => ho.fits hbefore (by simp [Work.tends, hb])) fun hn => ?_
      exact ho.fresh (by rw [Operator.tracked?, Operator.tracker_eq hd, hn])
    | monitor hd hr => exact Work.Fits.follows hr (ho.fits hbefore (by cases hr <;> exact htends))
    | _ => cases htends
  | started _ hm =>
    rw [hm.not_tends] at htends
    cases htends
  | spawned _ hbefore hn he =>
    subst he
    rw [Work.written?_none, Option.isSome_none]
    have hrole := ((keyed h hbefore).spawns hn).2
    cases hn with
    | event => simp [Work.tends, Reconcile.start, Reconcile.Stage.busy] at htends
    | @monitor o told k stage event d d' _ result monitor hd hr =>
      obtain ⟨rfl, rfl⟩ : o = owner ∧ k = key := by
        rcases hrole with hother | ⟨o', k', hold, hnew⟩
        · cases hother
        · cases hold
          have hserves := Work.serves_of_tends htends
          rw [hnew] at hserves
          simpa [Role.serves] using hserves
      refine Work.Fits.spawns hr (ho.fits hbefore ?_)
      cases hr <;> simp [Work.tends, Reconcile.Stage.busy]

theorem Ordered.kept (ho : Ordered owner key course t) (h : Execution Step {} history t)
    (hs : t.Step m t') (hmiss : Operator.misses owner key (t.operator, m) = false)
    (hnone : m.posts? owner key = none) : Ordered owner key course t' := by
  have hown := Operator.ownClaims (operator_execution h)
  refine ⟨ho.tended.step h hs hmiss, ho.fits_kept h hs hnone, fun hn => ?_⟩
  cases hs.1.alters hown owner key with
  | same hentry => exact ho.fresh (hentry ▸ hn)
  | claimed _ hentry | committed _ _ _ hentry | completed _ hentry =>
    rw [hentry] at hn
    cases hn
  | removed hc =>
    rw [Operator.cleans, hmiss] at hc
    cases hc
  | @released id told stage event claim _ hc =>
    have hfits := ho.fits hs.1.1 (by simp [Work.tends, Reconcile.Stage.busy_of_claim? hc])
    exact Work.Fits.fresh_of_claim? hc hfits

theorem Ordered.posted (ho : Ordered owner key course t) (h : Execution Step {} history t)
    (hs : t.Step m t') (hmiss : Operator.misses owner key (t.operator, m) = false) {stored : Run}
    (hpost : m.posts? owner key = some (id, stored)) :
    ∃ course', course.next? stored.status.phase = some course' ∧ Ordered owner key course' t' := by
  have htended := ho.tended.step h hs hmiss
  obtain ⟨work, event, u, status, rfl, hserves, hw, hstatus⟩ := status_posted h hs hpost
  have hbefore := hs.1.1.1
  have htends := Work.tends_of_written hserves hw
  have hfits := ho.fits hbefore htends
  rw [Work.written?_none] at hfits
  obtain ⟨course', hnext, hfits'⟩ := hfits.write (Operator.composes (operator_execution h) hbefore)
    htends hw status
  refine ⟨course', hstatus ▸ hnext, htended, fun {i work' answer} hw' htends' => ?_, fun hn => ?_⟩
  · cases hs.1.waits hw' with
    | kept hm hother =>
      exact absurd (congrArg some (ho.tended.unique hbefore hother htends htends')) hm
    | received hother _ he =>
      rw [hbefore] at hother
      cases hother
      subst he
      rwa [hw]
  · have hsome := ho.tended.tracked hbefore htends
    cases hs.1.handles owner with
    | idle ht =>
      rw [Operator.tracked?, ht, ← Operator.tracked?] at hn
      rw [hn] at hsome
      cases hsome

/-- From a moment on at which a run is there and nobody tends it, its phases come in order, as long
as it is kept. -/
theorem ordered (hearly : Execution Step {} early t) (hp : Present key t)
    (hfree : t.operator.tending owner key = 0) (h : Execution Step t history t')
    (hk : ∀ moment ∈ history, keeps key moment = true) :
    ∃ course, Course.after? (phases owner key history) = some course ∧
      Ordered owner key course t' := by
  induction h with
  | start =>
    have htended : Tended owner key t := by
      rw [Tended, hfree]
      exact Nat.zero_le _
    refine ⟨.idle, rfl, htended, fun hw htends => ?_, fun _ => rfl⟩
    have hpos := Operator.tending_pos hw htends
    omega
  | @next history s s' m before last ih =>
    have hk' := fun moment h => hk moment (List.mem_cons_of_mem _ h)
    obtain ⟨course, hcourse, ho⟩ := ih hk'
    have hs := hearly.trans before
    have hmiss : Operator.misses owner key (s.operator, m) = false :=
      (present_of_keeps hp before hk').not_misses last
    rw [phases_cons]
    cases hpost : m.posts? owner key with
    | none => exact ⟨course, by simpa using hcourse, ho.kept hs last hmiss hpost⟩
    | some post =>
      obtain ⟨course', hnext, ho'⟩ := ho.posted hs last hmiss hpost
      refine ⟨course', ?_, ho'⟩
      rw [Option.toList_some, List.map_singleton, Course.after?_concat, hcourse]
      exact hnext

/-! ## Pods that are recorded -/

/-- A reconciliation that knows a pod of its own has created it, since a moment at which nobody
tended the run. -/
theorem created (hearly : Execution Step {} early t) (hfree : t.operator.tending owner key = 0)
    (h : Execution Step t history t') {work : Work} {answer : Option work.wait.Event}
    (hw : t'.operator.progress? id = some (.waiting work answer))
    (hr : work.role = .reconciler owner key) {podName : String}
    (hc : work.created? answer = some podName) :
    ∃ moment ∈ history, moment.2.creation? id = some ⟨key.ns, podName⟩ := by
  induction h generalizing work with
  | start =>
    have hpos := Operator.tending_pos hw (Work.tends_of_created? hr hc)
    omega
  | @next history s s' m before last ih =>
    have earlier (hearlier : ∃ moment ∈ history, moment.2.creation? id = some ⟨key.ns, podName⟩) :
        ∃ moment ∈ (s, m) :: history, moment.2.creation? id = some ⟨key.ns, podName⟩ := by
      obtain ⟨moment, hmem, hcreation⟩ := hearlier
      exact ⟨moment, List.mem_cons_of_mem _ hmem, hcreation⟩
    cases last.1.waits hw with
    | kept _ hbefore => exact earlier (ih hbefore hr hc)
    | @received event hbefore _ he =>
      subst he
      cases work with
      | reconcile o told r =>
        obtain ⟨k, stage⟩ := r
        cases hr
        cases stage with
        | creating run claim name pod =>
          cases event with
          | error e => cases hc
          | ok stored =>
            cases hc
            refine ⟨_, List.mem_cons_self, ?_⟩
            rw [Move.creation?, if_pos rfl, ← creating_key (hearly.trans before) hbefore]
            rfl
        | recording run name token u => exact earlier (ih hbefore rfl hc)
        | _ => cases hc
      | _ => cases hr
    | resumed hbefore hg he =>
      subst he
      have hrole := hg.role.symm.trans hr
      cases hg with
      | reconcile hd hturn =>
        cases hturn with
        | commit | recording => exact earlier (ih hbefore hrole hc)
        | _ => cases hc
      | _ => cases hc
    | started _ hm he =>
      subst he
      cases hm <;> cases hc
    | spawned _ _ hn he =>
      subst he
      cases hn <;> cases hc

/-- A write that says that the run is running names the pod that its task has created. -/
theorem posted_running (hearly : Execution Step {} early t)
    (hfree : t.operator.tending owner key = 0) (h : Execution Step t history t') {t'' : Site}
    (hs : t'.Step m t'') {stored : Run} (hpost : m.posts? owner key = some (id, stored))
    (hphase : stored.status.phase = .running) :
    ∃ podName, stored.status.podName = some podName ∧
      ∃ moment ∈ history, moment.2.creation? id = some ⟨key.ns, podName⟩ := by
  obtain ⟨work, event, u, status, rfl, hserves, hw, hstatus⟩ :=
    status_posted (hearly.trans h) hs hpost
  have hbefore := hs.1.1.1
  rw [hstatus] at hphase ⊢
  have hcomposes := Operator.composes (operator_execution (hearly.trans h)) hbefore
  cases hcomposes.writes hw status with
  | update | harvest => cases hserves
  | announcing hchange | excusing hchange =>
    rw [hchange] at hphase
    cases hphase
  | monitor hterminal hchange =>
    rw [hchange] at hphase
    cases hphase
    cases hterminal
  | @recording o told k run podName token _ hchange =>
    obtain ⟨rfl, rfl⟩ : o = owner ∧ k = key := by simpa [Work.role, Role.serves] using hserves
    refine ⟨podName, by rw [hchange], ?_⟩
    exact created hearly hfree h hbefore rfl rfl

/-- The phases that a controller writes for a run come in order, from a moment on at which the run
is there and none of its tasks tends it, as long as nobody removes the run and no read says that it
is missing. The run is said to be running directly after it was said to be deployed, and nothing is
written after its end. A write that says that it is running names the pod that its task has
created. -/
theorem phases_in_order (hearly : Execution Step {} early t) (hp : Present key t)
    (hfree : t.operator.tending owner key = 0) (h : Execution Step t history t')
    (hk : ∀ moment ∈ history, keeps key moment = true) :
    Phase.InOrder (phases owner key history) ∧
      (∀ before rest, phases owner key history = before ++ .running :: rest →
        ∃ first, before = first ++ [.deploying]) ∧
      (∀ before last rest, phases owner key history = before ++ last :: rest →
        last.isTerminal = true → rest = []) ∧
      ∀ later before s m id stored, history = later ++ (s, m) :: before →
        m.posts? owner key = some (id, stored) → stored.status.phase = .running →
        ∃ podName, stored.status.podName = some podName ∧
          ∃ moment ∈ before, moment.2.creation? id = some ⟨key.ns, podName⟩ := by
  obtain ⟨course, hcourse, _⟩ := ordered hearly hp hfree h hk
  refine ⟨Course.inOrder hcourse, fun before rest he => ?_,
    fun before last rest he hlast => ?_, fun later before s m id stored he hpost hphase => ?_⟩
  · rw [he] at hcourse
    exact Course.before_running hcourse
  · rw [he] at hcourse
    exact Course.after_terminal hcourse hlast
  · subst he
    obtain ⟨_, hbefore, hs, _⟩ := h.split
    exact posted_running hearly hfree hbefore hs hpost hphase

def begun : List (Site × Move) × Site := play (Sample.opening "first")

/-- The first pod of the run is rejected, and a read of it fails. Then it gets a pod, which comes to
its end; meanwhile and afterwards it is reconciled in vain. -/
def eventful : List (Site × Move) × Site :=
  begun.2.playOn (.outside (.rejectNextPod "quota") :: .reconcile 0 Sample.key ::
    Sample.exchanges 0 6 ++ [.reconcile 0 Sample.key, .refuse 1 (.api 500 "etcd"), .resume 1] ++
    (.reconcile 0 Sample.key :: Sample.exchanges 2 4) ++
    (.reconcile 0 Sample.key :: Sample.exchanges 3 1) ++ Sample.exchanges 2 2 ++
    [.outside (.setPodStatus ⟨"ops", "cnf-job-run-2"⟩ { phase := .succeeded }),
      .tick 4, .resume 4] ++ Sample.exchanges 4 3 ++
    (.reconcile 0 Sample.key :: Sample.exchanges 5 1))

theorem present_begun : Present Sample.key begun.2 := by
  refine ⟨by decide +kernel, fun {id o told e} hw => ?_⟩
  have hnone : begun.2.operator.threads = [] := List.isEmpty_iff.mp (by decide +kernel)
  rw [Operator.progress?, hnone] at hw
  cases hw

/-- The controller writes five phases for the run, in order. -/
theorem phases_in_order_eventful :
    phases 0 Sample.key eventful.1 = [.deploying, .deployError, .deploying, .running, .finished] ∧
      Execution Step {} begun.1 begun.2 ∧ Present Sample.key begun.2 ∧
      begun.2.operator.tending 0 Sample.key = 0 ∧ Execution Step begun.2 eventful.1 eventful.2 ∧
      (∀ moment ∈ eventful.1, keeps Sample.key moment = true) ∧
      Phase.InOrder (phases 0 Sample.key eventful.1) ∧
      (∀ before rest, phases 0 Sample.key eventful.1 = before ++ .running :: rest →
        ∃ first, before = first ++ [.deploying]) ∧
      (∀ before last rest, phases 0 Sample.key eventful.1 = before ++ last :: rest →
        last.isTerminal = true → rest = []) ∧
      ∀ later before s m id stored, eventful.1 = later ++ (s, m) :: before →
        m.posts? 0 Sample.key = some (id, stored) → stored.status.phase = .running →
        ∃ podName, stored.status.podName = some podName ∧
          ∃ moment ∈ before, moment.2.creation? id = some ⟨Sample.key.ns, podName⟩ := by
  have hearly : Execution Step {} begun.1 begun.2 := play_execution _
  have h : Execution Step begun.2 eventful.1 eventful.2 := playOn_execution _ _
  have hfree : begun.2.operator.tending 0 Sample.key = 0 := by decide +kernel
  have hall : eventful.1.all (keeps Sample.key) = true := by decide +kernel
  have hk := List.all_eq_true.mp hall
  exact ⟨by decide +kernel, hearly, present_begun, hfree, h, hk,
    phases_in_order hearly present_begun hfree h hk⟩

end Site

end CertRuns
