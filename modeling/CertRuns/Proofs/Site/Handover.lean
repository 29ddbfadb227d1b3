import CertRuns.Proofs.Operator.OnePod
import CertRuns.Proofs.Site.Presence
import CertRuns.Proofs.Site.Provenance
import CertRuns.Proofs.Site.Sharing

/-!
# Handing runs over to another controller

All that a controller learns about the work of an earlier one is what the status of a run says. When
the pod of a run is recorded there, and the run and the pod stay, then another controller adopts the
pod.

* `Operator.alone`, `Operator.untaken` : one controller only reconciles a run; nobody is at it yet;
* `Reconcile.Settled` : where reconciliations of a run stand whose pod is recorded;
* `Secured` : the status of a run names its pod; this begins with the write that records the pod
  (`secured_of_write`) and is kept as long as the run and the pod stay (`Secured.step`);
* `handed_over` : a run whose pod was recorded gets no pod from another controller;
* `not_handed_over` : one whose pod could not be recorded gets a second one.
-/

namespace CertRuns

open Rehearsal (Work)

namespace Operator

variable {c : Operator} {owner : Nat} {key : ObjectKey}

/-- No reconciliation of the run by another controller is under way. -/
def alone (c : Operator) (owner : Nat) (key : ObjectKey) : Bool :=
  c.threads.all fun t => t.role?.all fun
    | .reconciler o k => k != key || o == owner
    | _ => true

theorem alone_waiting (h : c.alone owner key = true) {id o : Nat} {told : Option Nat}
    {stage : Reconcile.Stage} {answer : Option (Reconcile.mk key stage).wait.Event}
    (hw : c.progress? id = some (.waiting (.reconcile o told ⟨key, stage⟩) answer)) : o = owner := by
  obtain ⟨t, hp, hall⟩ := all_progress h hw
  rw [Thread.role?, hp] at hall
  simpa [Work.role] using hall

end Operator

/-- Is the task getting a pod for the run, or has it been told that the run is gone? -/
def Rehearsal.Work.takes (key : ObjectKey) : (work : Work) → Option work.wait.Event → Bool
  | .reconcile _ _ ⟨k, .fetching⟩, some (.error e) => k == key && e.isNotFound
  | .reconcile _ _ r, _ => r.key == key && r.stage.busy
  | _, _ => false

namespace Operator

/-- No task is getting a pod for the run, or has been told that it is gone. -/
def untaken (c : Operator) (key : ObjectKey) : Bool :=
  c.threads.all fun t =>
    match t.progress with
    | .waiting work answer => !work.takes key answer
    | .ended _ => true

variable {c : Operator} {owner : Nat} {key : ObjectKey}

theorem untaken_waiting (h : c.untaken key = true) {id : Nat} {work : Work}
    {answer : Option work.wait.Event} (hw : c.progress? id = some (.waiting work answer)) :
    work.takes key answer = false := by
  obtain ⟨t, hp, hall⟩ := all_progress h hw
  rw [hp] at hall
  simpa using hall

theorem untaken_not_engaged (h : c.untaken key = true) (i : Nat) : ¬ c.engaged owner key i := by
  rintro ⟨told, stage, answer, hw, hb⟩
  have hfree := untaken_waiting h hw
  cases stage with
  | fetching | deleting => cases hb
  | _ => simp [Work.takes, Reconcile.Stage.busy] at hfree

end Operator

/-- Where a reconciliation of a run stands whose pod was recorded. Those by the controller that has
recorded the pod are `ours`. -/
def Reconcile.Settled (key : ObjectKey) (podName : String) (ours : Prop) :
    (stage : Stage) → Option (Reconcile.mk key stage).wait.Event → Prop
  | .fetching, some (.ok run) => ours ∨ run.recordedPod? = some podName
  | .fetching, some (.error e) => e.isNotFound = false
  | .inspecting _ _ pod, some (.error e) => ¬ ours ∧ pod = ⟨key.ns, podName⟩ ∧ e.isNotFound = false
  | .inspecting _ _ pod, _ => ¬ ours ∧ pod = ⟨key.ns, podName⟩
  | .recording _ name _ _, _ => ours ∧ name = podName
  | .fetching, none | .deleting _, _ => True
  | _, _ => False

/-- The phase of the run is not terminal, and the pod is there. -/
def Store.inFlight (s : Store) (key : ObjectKey) (podName : String) : Bool :=
  (s.runs.get? key).any (fun run => !run.status.phase.isTerminal) &&
    s.pods.contains ⟨key.ns, podName⟩

theorem Reconcile.Settled.goes {d d' : Controller} {now : Instant} {key : ObjectKey}
    {podName : String} {stage : Stage} {event : (Reconcile.mk key stage).wait.Event} {r : Reconcile}
    {ours : Prop} (hs : Settled key podName ours stage (some event))
    (hr : Resumes d now key stage event d' (.going r))
    (htracked : ours → (d.tracker.runs.get? key).isSome = true) :
    Settled key podName ours r.stage none := by
  have hothers (hentry : d.tracker.runs.get? key = none) : ¬ ours := fun ho => by
    have hsome := htracked ho
    rw [hentry] at hsome
    cases hsome
  cases hr with
  | inspect hentry hpod =>
    have hrecorded := hs.resolve_left (hothers hentry)
    rw [hpod] at hrecorded
    cases hrecorded
    exact ⟨hothers hentry, rfl⟩
  | announce hentry hpod =>
    have hrecorded := hs.resolve_left (hothers hentry)
    rw [hpod] at hrecorded
    cases hrecorded
  | redeploy he =>
    rw [hs.2.2] at he
    cases he
  | cleaning | adoptLate | commitLate => trivial
  | recording => exact hs
  | announcing | deploy | unbuilt | commit | rejected | excusing => exact hs.elim

namespace Site

variable {t t' : Site} {m : Move} {history : List (Site × Move)} {owner j : Nat} {key : ObjectKey}
  {podName : String}

/-- The run has a pod, its status names this pod, and every reconciliation of it will find that. -/
structure Secured (owner : Nat) (key : ObjectKey) (podName : String) (t : Site) : Prop where
  status : ∃ r, t.store.runs.get? key = some r ∧ r.status.podName = some podName ∧
    (r.status.phase = .running ∨ r.status.phase.isTerminal = true)
  tracked : (t.operator.tracked? owner key).isSome = true
  tasks {id o : Nat} {told : Option Nat} {stage : Reconcile.Stage}
    {answer : Option (Reconcile.mk key stage).wait.Event}
    (hw : t.operator.progress? id = some (.waiting (.reconcile o told ⟨key, stage⟩) answer)) :
    Reconcile.Settled key podName (o = owner) stage answer

/-- Nobody touches the run, calls are honest, and other controllers reconcile the run only while it has
not come to its end and its pod is there. -/
structure Quiet (owner : Nat) (key : ObjectKey) (podName : String) (moment : Site × Move) : Prop where
  untouched : moment.2.touches key = false
  honest : honest moment = true
  flight : moment.1.operator.alone owner key = true ∨ moment.1.store.inFlight key podName = true

/-! ## What is kept -/

theorem recordedPod?_of_status {r : Run} (hp : r.status.podName = some podName)
    (hphase : r.status.phase = .running) (hne : podName ≠ "") : r.recordedPod? = some podName := by
  rw [Run.recordedPod?, hphase, hp]
  exact if_pos (decide_eq_true hne)

theorem Secured.received (hs : Secured owner key podName t) (hne : podName ≠ "")
    {id o : Nat} {told : Option Nat} {stage : Reconcile.Stage}
    {event : (Reconcile.mk key stage).wait.Event}
    (hstep : t.Step (.receive id (.reconcile o told ⟨key, stage⟩) event) t')
    (hh : honest (t, .receive id (.reconcile o told ⟨key, stage⟩) event) = true)
    (hflight : o ≠ owner → t.store.inFlight key podName = true) :
    Reconcile.Settled key podName (o = owner) stage (some event) := by
  have hbefore := hs.tasks hstep.1.1.1
  obtain ⟨r, hr, hpod, hphase⟩ := hs.status
  cases stage with
  | fetching =>
    cases event with
    | ok run =>
      obtain ⟨hrun, _⟩ := Store.Answers.getRun_ok hstep.2
      rw [hr] at hrun
      cases hrun
      by_cases ho : o = owner
      · exact .inl ho
      · have hflight := (Bool.and_eq_true_iff.mp (hflight ho)).1
        rw [hr] at hflight
        refine .inr (recordedPod?_of_status hpod (hphase.resolve_right fun hterminal => ?_) hne)
        simp [hterminal] at hflight
    | error e =>
      have hmissing : (!(e.isNotFound && t.store.runs.contains key)) = true := hh
      have hstored : t.store.runs.contains key = true := by rw [Table.contains, hr, Option.isSome_some]
      rw [hstored, Bool.and_true, Bool.not_eq_true'] at hmissing
      exact hmissing
  | inspecting run claim pod =>
    obtain ⟨ho, rfl⟩ := hbefore
    cases event with
    | ok found => exact ⟨ho, rfl⟩
    | error e =>
      have hmissing : (!(e.isNotFound && t.store.pods.contains ⟨key.ns, podName⟩)) = true := hh
      have hthere := (Bool.and_eq_true_iff.mp (hflight ho)).2
      rw [hthere, Bool.and_true, Bool.not_eq_true'] at hmissing
      exact ⟨ho, rfl, hmissing⟩
  | announcing | creating | excusing => exact hbefore.elim
  | recording => exact hbefore
  | deleting => trivial

theorem Secured.tasks_step (hs : Secured owner key podName t) (hne : podName ≠ "")
    (hstep : t.Step m t') (hq : Quiet owner key podName (t, m)) {id o : Nat} {told : Option Nat}
    {stage : Reconcile.Stage} {answer : Option (Reconcile.mk key stage).wait.Event}
    (hw : t'.operator.progress? id = some (.waiting (.reconcile o told ⟨key, stage⟩) answer)) :
    Reconcile.Settled key podName (o = owner) stage answer := by
  cases hstep.1.waits hw with
  | kept _ hbefore => exact hs.tasks hbefore
  | received hbefore _ he =>
    subst he
    refine hs.received hne hstep hq.honest fun ho => hq.flight.resolve_left fun halone => ho ?_
    exact Operator.alone_waiting halone hbefore
  | resumed hbefore hg he =>
    subst he
    cases hg with
    | @reconcile _ _ k _ _ _ _ _ _ hd hr =>
      obtain rfl : key = k := hr.key_going
      refine (hs.tasks hbefore).goes hr fun ho => ?_
      subst ho
      have htracked := hs.tracked
      rwa [Operator.tracked?, Operator.tracker_eq hd] at htracked
  | started _ hm he =>
    subst he
    cases hm
    trivial
  | spawned _ _ hn he =>
    subst he
    cases hn
    trivial

theorem Secured.tracked_step (hs : Secured owner key podName t) (h : Execution Step {} history t)
    (hstep : t.Step m t') : (t'.operator.tracked? owner key).isSome = true := by
  have hsome := hs.tracked
  cases hstep.1.alters (Operator.ownClaims (operator_execution h)) owner key with
  | same hentry => rwa [hentry]
  | claimed _ hentry | committed _ _ _ hentry | completed _ hentry => rw [hentry, Option.isSome_some]
  | removed hc =>
    obtain ⟨id, told, e, rfl, he⟩ := Operator.misses_eq_true (Bool.and_eq_true_iff.mp hc).1
    rw [show e.isNotFound = false from hs.tasks hstep.1.1] at he
    cases he
  | @released id told stage event claim _ hc =>
    have hsettled := hs.tasks hstep.1.1
    cases stage with
    | inspecting run claim pod => cases event <;> exact absurd rfl hsettled.1
    | announcing | creating | excusing => exact hsettled.elim
    | fetching | recording | deleting => cases hc

theorem Secured.status_step (hs : Secured owner key podName t) (h : Execution Step {} history t)
    (hstep : t.Step m t') (hm : m.touches key = false) :
    ∃ r, t'.store.runs.get? key = some r ∧ r.status.podName = some podName ∧
      (r.status.phase = .running ∨ r.status.phase.isTerminal = true) := by
  obtain ⟨r, hr, hpod, hphase⟩ := hs.status
  have hstored := hstep.contains_run hm (by rw [Table.contains, hr, Option.isSome_some])
  obtain ⟨r', hr'⟩ := Option.isSome_iff_exists.mp hstored
  refine ⟨r', hr', ?_⟩
  cases hstep.status h hr' with
  | kept hbefore hstatus =>
    rw [hr] at hbefore
    cases hbefore
    rw [hstatus]
    exact ⟨hpod, hphase⟩
  | applied hk => exact absurd hk (beq_eq_false_iff_ne.mp hm)
  | called hreply =>
    subst hreply
    exact absurd ((sound (.next h hstep)).keyed hr') (beq_eq_false_iff_ne.mp hm)
  | @written id work event u before hw hk hbefore hstatus =>
    rw [hr] at hbefore
    cases hbefore
    rw [hstatus]
    have hw' := hstep.1.1.1
    have hcomposes := Operator.composes (operator_execution h) hw'
    have settled {o : Nat} {told : Option Nat} {k : ObjectKey} {stage : Reconcile.Stage}
        (hw : t.operator.progress? id = some (.waiting (.reconcile o told ⟨k, stage⟩) none))
        (hkey : u.key = k) : Reconcile.Settled key podName (o = owner) stage none := by
      obtain rfl : k = key := hkey.symm.trans hk
      exact hs.tasks hw
    cases hcomposes.writes hw r.status with
    | update =>
      rw [Move.touches, hw, Option.isSome_some, Bool.and_true] at hm
      exact absurd hk (beq_eq_false_iff_ne.mp hm)
    | announcing => exact (settled hw' (keyed h hw').2).elim
    | excusing => exact (settled hw' (keyed h hw')).elim
    | recording _ he =>
      obtain ⟨_, rfl⟩ := settled hw' (keyed h hw').2
      rw [he]
      exact ⟨rfl, .inl rfl⟩
    | monitor hterminal he =>
      rw [he]
      exact ⟨hpod, .inr hterminal⟩
    | harvest he =>
      rw [he]
      exact ⟨hpod, hphase⟩

theorem Secured.step (hs : Secured owner key podName t) (hne : podName ≠ "")
    (h : Execution Step {} history t) (hstep : t.Step m t') (hq : Quiet owner key podName (t, m)) :
    Secured owner key podName t' :=
  ⟨hs.status_step h hstep hq.untouched, hs.tracked_step h hstep, hs.tasks_step hne hstep hq⟩

/-- As long as it is quiet, a run that is secured stays so. -/
theorem secured {early : List (Site × Move)} (hearly : Execution Step {} early t)
    (hs : Secured owner key podName t) (hne : podName ≠ "") (h : Execution Step t history t')
    (hq : ∀ moment ∈ history, Quiet owner key podName moment) : Secured owner key podName t' := by
  induction h with
  | start => exact hs
  | next before last ih =>
    have hbefore := ih fun moment h => hq moment (List.mem_cons_of_mem _ h)
    exact hbefore.step hne (hearly.trans before) last (hq _ List.mem_cons_self)

/-! ## How it begins -/

/-- A reconciliation of the controller that gets no pod for the run is settled, whichever the pod. -/
theorem Present.settled (hp : Present key t) {id : Nat} {told : Option Nat} {stage : Reconcile.Stage}
    {answer : Option (Reconcile.mk key stage).wait.Event}
    (hw : t.operator.progress? id = some (.waiting (.reconcile owner told ⟨key, stage⟩) answer))
    (hb : stage.busy = false) : Reconcile.Settled key podName (owner = owner) stage answer := by
  cases stage with
  | fetching =>
    cases answer with
    | none => trivial
    | some event =>
      cases event with
      | ok run => exact .inl rfl
      | error e => exact hp.told hw
  | deleting => trivial
  | _ => cases hb

/-- A run is secured by the write that records its pod, if the controller is alone with the run and
only one of its reconciliations is getting a pod. -/
theorem secured_of_write (h : Execution Step {} history t) (hstep : t.Step m t')
    (hp : Present key t) (he : Operator.Exclusive owner key t.operator)
    (halone : t.operator.alone owner key = true)
    (hrole : t'.operator.role? j = some (.reconciler owner key)) {u : StatusUpdate} {stored : Run}
    (hw : m.write? j = some (u, stored)) (hphase : stored.status.phase = .running) :
    ∃ podName ≠ "", Secured owner key podName t' := by
  obtain ⟨before, hbefore, hstored, hruns⟩ := write_stored h hstep hw
  have hstatus : stored.status = u.change before.status := by rw [hstored]; rfl
  obtain ⟨work, event, rfl, hwritten⟩ := Move.write?_eq_some hw
  have hj := hstep.1.1.1
  rw [hstep.1.role? (Operator.role?_waiting (operator_execution h) hj)] at hrole
  have hcomposes := Operator.composes (operator_execution h) hj
  rw [hstatus] at hphase
  cases hcomposes.writes hwritten before.status with
  | update | monitor | harvest => cases hrole
  | announcing hchange | excusing hchange =>
    rw [hchange] at hphase
    cases hphase
  | @recording o told k run podName token hne hchange =>
    obtain ⟨rfl, rfl⟩ : o = owner ∧ k = key := by
      cases hrole
      exact ⟨rfl, rfl⟩
    have hkey : u.key = k := (keyed h hj).2
    refine ⟨podName, hne, ⟨stored, ?_, ?_, .inl ?_⟩, ?_, fun {id o told stage answer} hw => ?_⟩
    · rw [hruns, hkey, Table.get?_insert_self]
    · rw [hstatus, hchange]
    · rw [hstatus, hchange]
    · have htracked := he.tracked ⟨_, _, _, hj, rfl⟩
      cases hstep.1.handles o with
      | idle ht => rwa [Operator.tracked?, ht]
    · cases hstep.1.waits hw with
      | kept hm hkept =>
        obtain rfl := Operator.alone_waiting halone hkept
        refine hp.settled hkept (Bool.eq_false_iff.mpr fun hb => hm ?_)
        exact congrArg some (he.unique ⟨_, _, _, hj, rfl⟩ ⟨_, _, _, hkept, hb⟩)
      | received hkept =>
        rw [hj] at hkept
        cases hkept
        exact ⟨rfl, rfl⟩

/-! ## What comes of it -/

theorem Secured.not_creates (hs : Secured owner key podName t) (hstep : t.Step m t') (o : Nat) :
    Operator.creates o key (t.operator, m) = false := by
  refine Bool.eq_false_iff.mpr fun hc => ?_
  obtain ⟨id, told, run, claim, podName, pod, stored, rfl⟩ := Operator.creates_eq_true hc
  exact hs.tasks hstep.1.1.1

/-- A reconciliation that leads to a new pod while the run is secured is one by the controller that has
recorded the pod, and leads to this pod. -/
theorem Secured.started (hs : Secured owner key podName t) (h : Execution Step {} history t)
    (hstep : t.Step m t') {id o : Nat} (hrole : t'.operator.role? id = some (.reconciler o key))
    {name : String} (ho : t'.operator.outcome? id = some (.started name)) :
    t.operator.outcome? id = some (.started name) ∨ o = owner ∧ name = podName := by
  rcases hstep.1.outcome ho with hbefore | ⟨work, event, rfl, hc⟩
  · exact .inl hbefore
  · cases hc with
    | reconcile hr =>
      have hw := hstep.1.1
      have hbefore := Operator.role?_waiting (operator_execution h) hw
      rw [hstep.1.role? hbefore] at hrole
      cases hrole
      cases hr with
      | recorded => exact .inr (hs.tasks hw)

theorem started_secured {early : List (Site × Move)} (hearly : Execution Step {} early t)
    (hs : Secured owner key podName t) (hne : podName ≠ "") (h : Execution Step t history t')
    (hq : ∀ moment ∈ history, Quiet owner key podName moment) {id o : Nat}
    (hrole : t'.operator.role? id = some (.reconciler o key)) {name : String}
    (ho : t'.operator.outcome? id = some (.started name)) :
    t.operator.outcome? id = some (.started name) ∨ o = owner ∧ name = podName := by
  induction h with
  | start => exact .inl ho
  | next before last ih =>
    have hq' := fun moment h => hq moment (List.mem_cons_of_mem _ h)
    have hbefore := secured hearly hs hne before hq'
    rcases hbefore.started (hearly.trans before) last hrole ho with ho | ho
    · refine ih hq' ?_ ho
      exact Operator.role?_earlier (.next .start last.1) (Operator.outcome?_eq_some.mp ho) hrole
    · exact .inr ho

/-- When a reconciliation has led to a pod and its write that records the pod was accepted, the run is
secured, provided that at a moment before no task was getting a pod for the run, and that since then
nobody has touched the run and the controller was alone with it. -/
theorem secured_of_started {early first : List (Site × Move)} {t₁ t₂ : Site}
    (hearly : Execution Step {} early t₁) (hfirst : Execution Step t₁ first t₂)
    (hhere : t₁.store.runs.contains key = true) (hfree : t₁.operator.untaken key = true)
    (halone : ∀ moment ∈ first, moment.1.operator.alone owner key = true)
    (hm : ∀ moment ∈ first, moment.2.touches key = false)
    (hh : ∀ moment ∈ first, honest moment = true)
    (hrole : t₂.operator.role? j = some (.reconciler owner key))
    (hstarted : t₂.operator.outcome? j = some (.started podName))
    (hrecorded : ∃ moment ∈ first, ∃ u stored, moment.2.write? j = some (u, stored) ∧
      stored.status.phase = .running) :
    podName ≠ "" ∧ Secured owner key podName t₂ := by
  obtain ⟨⟨s, m⟩, hmem, u, stored, hw, hphase⟩ := hrecorded
  obtain ⟨later, before, rfl⟩ := List.append_of_mem hmem
  obtain ⟨s', hbefore, hstep, hafter⟩ := hfirst.split
  have hs := hearly.trans hbefore
  obtain ⟨work, event, rfl, _⟩ := Move.write?_eq_some hw
  have hgiven : s'.operator.progress? j = some (.waiting work (some event)) := by
    rw [hstep.1.2]
    exact Operator.progress?_receive_self hstep.1.1.1
  have hrole' : s'.operator.role? j = some (.reconciler owner key) :=
    Operator.role?_earlier (hafter.map Site.operator fun h => h.1) hgiven hrole
  have hpresent : Present key t₁ := ⟨hhere, fun hw => by
    simpa [Work.takes] using Operator.untaken_waiting hfree hw⟩
  have hm' := fun moment h => hm moment (List.mem_append_right _ (List.mem_cons_of_mem _ h))
  have hh' := fun moment h => hh moment (List.mem_append_right _ (List.mem_cons_of_mem _ h))
  have hexclusive : Operator.Exclusive owner key s.operator :=
    one_at_a_time hearly hpresent (Operator.untaken_not_engaged hfree) hbefore hm' hh'
  obtain ⟨recorded, hne, hsecured⟩ := secured_of_write hs hstep (present hpresent hbefore hm' hh')
    hexclusive (halone _ hmem) hrole' hw hphase
  have hq : ∀ moment ∈ later, Quiet owner key recorded moment := fun moment h =>
    have h := List.mem_append_left _ h
    ⟨hm moment h, hh moment h, .inl (halone moment h)⟩
  rcases started_secured (hs.next hstep) hsecured hne hafter hq hrole hstarted with ho | ⟨_, rfl⟩
  · rw [Operator.outcome?, hgiven] at ho
    cases ho
  · exact ⟨hne, secured (hs.next hstep) hsecured hne hafter hq⟩

/-- When a reconciliation has led to a pod and its write that records the pod was accepted, no other
controller's reconciliation that begins later creates a pod for the run, as long as the run and the
pod stay and the run has not come to its end; provided that at a moment before no task was getting a
pod for the run, and that since then nobody has touched the run and, up to the outcome, the
controller was alone with it. -/
theorem handed_over {early first second : List (Site × Move)} {t₁ t₂ t₃ : Site}
    (hearly : Execution Step {} early t₁) (hfirst : Execution Step t₁ first t₂)
    (hsecond : Execution Step t₂ second t₃) (hhere : t₁.store.runs.contains key = true)
    (hfree : t₁.operator.untaken key = true)
    (halone : ∀ moment ∈ first, moment.1.operator.alone owner key = true)
    (hm : ∀ moment ∈ second ++ first, moment.2.touches key = false)
    (hh : ∀ moment ∈ second ++ first, honest moment = true)
    (hrole : t₂.operator.role? j = some (.reconciler owner key))
    (hstarted : t₂.operator.outcome? j = some (.started podName))
    (hrecorded : ∃ moment ∈ first, ∃ u stored, moment.2.write? j = some (u, stored) ∧
      stored.status.phase = .running)
    (hflight : ∀ moment ∈ second, moment.1.store.inFlight key podName = true) :
    (∀ moment ∈ operatorHistory second, ∀ o, Operator.creates o key moment = false) ∧
      ∀ id o name, t₂.operator.role? id = none → o ≠ owner →
        t₃.operator.role? id = some (.reconciler o key) →
        t₃.operator.outcome? id ≠ some (.started name) := by
  obtain ⟨hne, hsecured⟩ := secured_of_started hearly hfirst hhere hfree halone
    (fun moment h => hm moment (List.mem_append_right _ h))
    (fun moment h => hh moment (List.mem_append_right _ h)) hrole hstarted hrecorded
  have h := hearly.trans hfirst
  have hq : ∀ moment ∈ second, Quiet owner key podName moment := fun moment hmoment =>
    have hmem := List.mem_append_left _ hmoment
    ⟨hm moment hmem, hh moment hmem, .inr (hflight moment hmoment)⟩
  refine ⟨fun moment hmoment o => ?_, fun id o name hnew ho hrole hstarted => ?_⟩
  · obtain ⟨⟨s, m⟩, hs, rfl⟩ := List.mem_map.mp hmoment
    obtain ⟨later, before, rfl⟩ := List.append_of_mem hs
    obtain ⟨_, hbefore, hlast, _⟩ := hsecond.split
    refine (secured h hsecured hne hbefore fun moment hmoment => ?_).not_creates hlast o
    exact hq moment (List.mem_append_right _ (List.mem_cons_of_mem _ hmoment))
  · rcases started_secured h hsecured hne hsecond hq hrole hstarted with hbefore | ⟨hsame, _⟩
    · have hthere := Operator.role?_earlier (hsecond.map Site.operator fun hs => hs.1)
        (Operator.outcome?_eq_some.mp hbefore) hrole
      rw [hnew] at hthere
      cases hthere
    · exact ho hsame

/-- A controller is at work, and a run was applied. -/
def prelude : List (Site × Move) × Site :=
  play (Sample.opening "first" ++ .seed 0 "ops" :: Sample.exchanges 0 1)

/-- The run gets a pod, and the controller is shut down. -/
def deployment : List (Site × Move) × Site :=
  prelude.2.playOn (.reconcile 0 Sample.key :: Sample.exchanges 1 6 ++
    [.shutDown 0, .cancel 2, .resume 2])

def succession : List (Site × Move) × Site :=
  deployment.2.playOn ([.install Sample.settings {}, .seed 1 "ops"] ++ Sample.exchanges 3 1 ++
    .reconcile 1 Sample.key :: Sample.exchanges 4 2)

theorem quiet_succession :
    (∀ moment ∈ deployment.1, moment.1.operator.alone 0 Sample.key = true) ∧
      (∀ moment ∈ succession.1 ++ deployment.1, moment.2.touches Sample.key = false) ∧
      (∀ moment ∈ succession.1 ++ deployment.1, honest moment = true) ∧
      ∀ moment ∈ succession.1, moment.1.store.inFlight Sample.key "cnf-job-run-1" = true := by
  have halone : deployment.1.all (fun moment => moment.1.operator.alone 0 Sample.key) = true := by
    decide +kernel
  have hm : (succession.1 ++ deployment.1).all
      (fun moment => !moment.2.touches Sample.key && honest moment) = true := by decide +kernel
  have hflight : succession.1.all
      (fun moment => moment.1.store.inFlight Sample.key "cnf-job-run-1") = true := by decide +kernel
  refine ⟨List.all_eq_true.mp halone, fun moment h => ?_, fun moment h => ?_,
    List.all_eq_true.mp hflight⟩
  · simpa using (Bool.and_eq_true_iff.mp (List.all_eq_true.mp hm moment h)).1
  · exact (Bool.and_eq_true_iff.mp (List.all_eq_true.mp hm moment h)).2

theorem recorded_deployment :
    ∃ moment ∈ deployment.1, ∃ u stored, moment.2.write? 1 = some (u, stored) ∧
      stored.status.phase = .running := by
  have h : deployment.1.any (fun moment =>
      (moment.2.write? 1).any fun write => decide (write.2.status.phase = .running)) = true := by
    decide +kernel
  obtain ⟨moment, hmem, hany⟩ := List.any_eq_true.mp h
  obtain ⟨⟨u, stored⟩, hw, hphase⟩ := (Option.any_eq_true _ _).mp hany
  exact ⟨moment, hmem, u, stored, hw, of_decide_eq_true hphase⟩

/-- The other controller adopts the pod, and nobody creates one. -/
theorem handed_over_succession :
    deployment.2.operator.outcome? 1 = some (.started "cnf-job-run-1") ∧
      succession.2.operator.role? 4 = some (.reconciler 1 Sample.key) ∧
      succession.2.operator.outcome? 4 = some (.adopted "cnf-job-run-1") ∧
      (∀ moment ∈ operatorHistory succession.1, ∀ o,
        Operator.creates o Sample.key moment = false) ∧
      ∀ id o name, deployment.2.operator.role? id = none → o ≠ 0 →
        succession.2.operator.role? id = some (.reconciler o Sample.key) →
        succession.2.operator.outcome? id ≠ some (.started name) := by
  obtain ⟨halone, hm, hh, hflight⟩ := quiet_succession
  have hrole : deployment.2.operator.role? 1 = some (.reconciler 0 Sample.key) := by decide +kernel
  have hstarted : deployment.2.operator.outcome? 1 = some (.started "cnf-job-run-1") := by
    decide +kernel
  exact ⟨hstarted, by decide +kernel, by decide +kernel,
    handed_over (play_execution _) (playOn_execution _ _) (playOn_execution _ _) (by decide +kernel)
      (by decide +kernel) halone hm hh hrole hstarted recorded_deployment hflight⟩

/-- The run gets a pod that cannot be recorded, and the controller is shut down. -/
def unrecorded : List (Site × Move) × Site :=
  prelude.2.playOn (.reconcile 0 Sample.key :: Sample.exchanges 1 5 ++
    [.refuse 1 (.api 500 "etcd leader changed"), .resume 1, .shutDown 0, .cancel 2, .resume 2])

/-- Another controller reconciles the run, whose status does not name the pod. -/
def repeated : List (Site × Move) × Site :=
  unrecorded.2.playOn ([.install Sample.settings {}, .seed 1 "ops"] ++ Sample.exchanges 3 1 ++
    .reconcile 1 Sample.key :: Sample.exchanges 4 6)

/-- It is not so that a run that has got a pod from a controller that was shut down gets none from the
next one, even if the run and the pod stay and the run has not come to its end: its pod may not have
been recorded. -/
theorem not_handed_over :
    ¬ ∀ (first second : List (Site × Move)) (t t' : Site) (owner o j id : Nat) (key : ObjectKey)
      (podName name : String), Execution Step {} first t → Execution Step t second t' →
      (∀ moment ∈ second ++ first, moment.2.meddles = false ∧ honest moment = true) →
      inTurn (second ++ first) = true → t.operator.role? j = some (.reconciler owner key) →
      t.operator.outcome? j = some (.started podName) → t.operator.retired owner = true →
      (∀ moment ∈ second, moment.2.touches key = false ∧
        moment.1.store.inFlight key podName = true) →
      o ≠ owner → t'.operator.role? id = some (.reconciler o key) →
      t'.operator.outcome? id ≠ some (.started name) := by
  intro once
  have hall : (repeated.1 ++ (unrecorded.1 ++ prelude.1)).all
      (fun moment => !moment.2.meddles && honest moment) = true := by decide +kernel
  have hflight : repeated.1.all (fun moment => !moment.2.touches Sample.key &&
      moment.1.store.inFlight Sample.key "cnf-job-run-1") = true := by decide +kernel
  refine once (unrecorded.1 ++ prelude.1) repeated.1 unrecorded.2 repeated.2 0 1 1 4 Sample.key
    "cnf-job-run-1" "cnf-job-run-2" ((play_execution _).trans (playOn_execution _ _))
    (playOn_execution _ _) (fun moment h => ?_) (by decide +kernel) (by decide +kernel)
    (by decide +kernel) (by decide +kernel) (fun moment h => ?_) (by decide) (by decide +kernel)
    (by decide +kernel)
  · simpa using List.all_eq_true.mp hall moment h
  · simpa using List.all_eq_true.mp hflight moment h

end Site

end CertRuns
