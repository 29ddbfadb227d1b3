import CertRuns.Proofs.Operator.Commits
import CertRuns.Proofs.Site.Keys
import CertRuns.Proofs.Site.Script

/-!
# Which monitor completes an entry

A monitor is started for one commit of a claim, and is given the pod and the token of that commit.
At its end it marks the run as completed, whatever entry the run has by then.

* `Step.attends` : a task that attends to the pod of a commit has done so since that commit;
* `attended` : the pod of a commit that a task attends to is that of the run's entry, or the run
  was cleaned up after;
* `completed_iff` : an entry is completed by a monitor at its end, which is the entry's own just
  when its commit was not cleaned up after;
* `not_completed_by_own` : the monitor of a run that is gone may complete the entry of the next one.
-/

namespace CertRuns.Site

open Rehearsal (Work)

variable {t t' : Site} {m : Move} {history : List (Site × Move)} {owner : Nat} {key : ObjectKey}
  {token : Token} {podName : String}

/-! ## Tasks that attend to the pod of a commit -/

/-- A pod that is being recorded has been so before, or has just been committed. -/
theorem Step.recording (h : Execution Step {} history t) (hs : t.Step m t') {id : Nat}
    {told : Option Nat} {run : Run} {u : StatusUpdate} {answer : Option u.wait.Event}
    (hw : t'.operator.progress? id =
      some (.waiting (.reconcile owner told ⟨key, .recording run podName token u⟩) answer)) :
    t.operator.Attends owner key token podName ∨ t'.operator.Commits owner key token podName := by
  have hown := Operator.ownClaims (operator_execution h)
  cases hs.1.waits hw with
  | kept _ hbefore => exact .inl (.recording hbefore)
  | received hbefore => exact .inl (.recording hbefore)
  | resumed hbefore hg =>
    have hcs := hs.1.controllers
    cases hg with
    | reconcile hd hr hc ht =>
      cases hr with
      | commit =>
        have hkey := hown id _ _ hbefore _ rfl
        exact .inr (Operator.commits hd (hcs.trans hc) ht rfl hkey)
      | recording => exact .inl (.recording hbefore)
  | started _ hm => cases hm
  | spawned _ _ hn => cases hn

/-- A monitor has been there before, or it starts now: its pod has just been committed, or was being
recorded. -/
theorem Step.monitoring (h : Execution Step {} history t) (hs : t.Step m t') {id : Nat} {x : Thread}
    {w : CompletionWait} (hx : t'.operator.threads[id]? = some x)
    (ho : x.origin = .monitor owner ⟨key, .waiting w⟩) :
    t.operator.Attends owner key w.token w.pod.name ∨
      t'.operator.Commits owner key w.token w.pod.name := by
  have hown := Operator.ownClaims (operator_execution h)
  cases hs.1.begins hx with
  | before hx hbefore => exact .inl (.monitoring hx (hbefore.symm.trans ho) rfl rfl)
  | outside hw =>
    rw [ho] at hw
    cases hw
  | @spawned parent work event hm hw hn =>
    subst hm
    have hkeyed := keyed h hw
    have hcs := hs.1.controllers
    rw [ho] at hn
    cases hn with
    | monitor hd hr hc htracker =>
      cases hr with
      | @adopt run claim pod found hclaim =>
        have hrun : run.key = _ := hkeyed
        have hkey := hown parent _ _ hw claim rfl
        exact .inr (Operator.commits hd (hcs.trans hc) htracker rfl (hkey.trans hrun.symm))
      | recorded =>
        have hrun := hkeyed.1
        subst hrun
        exact .inl (.recording hw)

theorem Step.attends (h : Execution Step {} history t) (hs : t.Step m t')
    (ha : t'.operator.Attends owner key token podName) :
    t.operator.Attends owner key token podName ∨ t'.operator.Commits owner key token podName := by
  cases ha with
  | recording hw => exact hs.recording h hw
  | monitoring hx ho hp ht =>
    subst hp ht
    exact hs.monitoring h hx ho

theorem attended (h : Execution Step {} history t)
    (ha : t.operator.Attends owner key token podName) :
    t.operator.Held owner key token podName (operatorHistory history) := by
  induction h with
  | start =>
    cases ha with
    | recording hw => cases hw
    | monitoring hx => cases hx
  | next before last ih =>
    have hoperator := operator_execution before
    rcases last.attends before ha with ha | ⟨number, he⟩
    · exact (ih ha).step last.1 (Operator.ownClaims hoperator)
        (Operator.soundClaims hoperator owner)
    · exact .inl ⟨_, he, rfl, rfl⟩

/-! ## Completions -/

/-- The pod that a monitor was started for is that of the run's entry, or the run was cleaned up
after. -/
theorem monitored (h : Execution Step {} history t) {id : Nat}
    (hr : t.operator.role? id = some (.monitor owner key)) :
    ∃ podName token, t.operator.commit? id = some (podName, token) ∧
      t.operator.Held owner key token podName (operatorHistory history) := by
  obtain ⟨x, hx, hrole⟩ := Option.map_eq_some_iff.mp hr
  obtain ⟨w, ho⟩ := Operator.monitor_origin (operator_execution h) hx hrole
  refine ⟨w.pod.name, w.token, ?_, attended h (.monitoring hx ho rfl rfl)⟩
  rw [Operator.commit?, hx, Option.map_some, ho]

/-- An entry becomes completed only when a monitor of the run comes to its end. The pod and the
token that this was started for are those of the entry just when their commit was not cleaned up
after. -/
theorem completed_iff (h : Execution Step {} history t) (hs : t.Step m t')
    (hopen : (t.operator.tracked? owner key).map (·.state) ≠ some .completed)
    (hdone : (t'.operator.tracked? owner key).map (·.state) = some .completed) :
    ∃ (id : Nat) (u : StatusUpdate) (event : u.wait.Event) (e : TrackedRun) (podName : String)
      (token : Token), m = .resume id (.monitor owner ⟨key, .recording u⟩) event ∧
        t.operator.commit? id = some (podName, token) ∧
        t.operator.tracked? owner key = some e ∧
        t'.operator.tracked? owner key = some { e with state := .completed } ∧
        (e.cancel = some token ∧ e.podName = some podName ↔
          Operator.cleaned owner key token (operatorHistory history) = false) := by
  have hoperator := operator_execution h
  cases hs.1.alters (Operator.ownClaims hoperator) owner key with
  | same hentry =>
    rw [hentry] at hdone
    exact absurd hdone hopen
  | claimed _ hentry | committed _ _ _ hentry | removed _ hentry | released _ _ _ hentry =>
    rw [hentry] at hdone
    cases hdone
  | @completed id u event e he hentry =>
    obtain ⟨podName, token, hcommit, hheld⟩ := monitored h (Operator.role?_waiting hoperator hs.1.1)
    refine ⟨id, u, event, e, podName, token, rfl, hcommit, he, hentry, ?_⟩
    exact hheld.iff (Operator.soundTokens hoperator owner) he

/-- The run is deployed, its pod has come to its end, and its monitor has written that. -/
def finished : List (Site × Move) × Site :=
  play (Sample.opening "first" ++
    (.reconcile 0 Sample.key :: Sample.exchanges 0 6) ++
    [.outside (.setPodStatus ⟨"ops", "cnf-job-run-1"⟩ { phase := .succeeded }),
      .tick 1, .resume 1, .serve 1 .epoch, .resume 1, .serve 1 .epoch, .resume 1, .serve 1 .epoch])

/-- The monitor of a run that is still there completes its own entry. -/
theorem completed_iff_finished :
    let last := finished.2.act (.resume 1)
    Operator.cleaned 0 Sample.key ⟨0⟩ (operatorHistory finished.1) = false ∧
      Execution Step {} finished.1 finished.2 ∧ finished.2.Step last.1 last.2 ∧
      (finished.2.operator.tracked? 0 Sample.key).map (·.state) ≠ some .completed ∧
      (last.2.operator.tracked? 0 Sample.key).map (·.state) = some .completed ∧
      ∃ (id : Nat) (u : StatusUpdate) (event : u.wait.Event) (e : TrackedRun) (podName : String)
        (token : Token), last.1 = .resume id (.monitor 0 ⟨Sample.key, .recording u⟩) event ∧
          finished.2.operator.commit? id = some (podName, token) ∧
          finished.2.operator.tracked? 0 Sample.key = some e ∧
          last.2.operator.tracked? 0 Sample.key = some { e with state := .completed } ∧
          (e.cancel = some token ∧ e.podName = some podName ↔
            Operator.cleaned 0 Sample.key token (operatorHistory finished.1) = false) := by
  have h : Execution Step {} finished.1 finished.2 := play_execution _
  have hs := act_step finished.2 (.resume 1)
  have hopen : (finished.2.operator.tracked? 0 Sample.key).map (·.state) ≠ some .completed := by
    decide +kernel
  have hdone : ((finished.2.act (.resume 1)).2.operator.tracked? 0 Sample.key).map (·.state) =
      some .completed := by decide +kernel
  exact ⟨by decide +kernel, h, hs, hopen, hdone, completed_iff h hs hopen hdone⟩

/-- The first pod of a run has come to its end, and its monitor has asked for the run to write that
when the run was gone. It gets the answer when the next run with this key has a pod. -/
def late : List (Site × Move) × Site :=
  play (Sample.opening "first" ++
    (.reconcile 0 Sample.key :: Sample.exchanges 0 6) ++
    [.outside (.setPodStatus ⟨"ops", "cnf-job-run-1"⟩ { phase := .succeeded }),
      .tick 1, .resume 1, .serve 1 .epoch, .resume 1, .outside (.removeRun Sample.key)] ++
    (.reconcile 0 Sample.key :: Sample.exchanges 2 2) ++
    [.serve 1 .epoch, .outside (.applyRun .epoch (Sample.run "second"))] ++
    (.reconcile 0 Sample.key :: Sample.exchanges 3 6))

/-- It is not so that an entry is completed by its own monitor only: the monitor of the first run
completes the entry of the second one. -/
theorem not_completed_by_own :
    ¬ ∀ (history : List (Site × Move)) (t t' : Site) (m : Move) (owner : Nat) (key : ObjectKey),
      Execution Step {} history t → t.Step m t' →
      (t.operator.tracked? owner key).map (·.state) ≠ some .completed →
      (t'.operator.tracked? owner key).map (·.state) = some .completed →
      ∃ (id : Nat) (podName : String) (token : Token) (e : TrackedRun),
        m.subject? = some id ∧ t.operator.commit? id = some (podName, token) ∧
          t.operator.tracked? owner key = some e ∧ e.cancel = some token ∧
          e.podName = some podName := by
  intro own
  obtain ⟨id, podName, token, e, hid, hcommit, he, htoken, hpod⟩ :=
    own late.1 late.2 _ _ 0 Sample.key (play_execution _) (act_step late.2 (.resume 1))
      (by decide +kernel) (by decide +kernel)
  have hone : (late.2.act (.resume 1)).1.subject? = some 1 := by decide +kernel
  have hfirst : late.2.operator.commit? 1 = some ("cnf-job-run-1", ⟨0⟩) := by decide +kernel
  have hsecond : late.2.operator.tracked? 0 Sample.key =
      some ⟨2, some "cnf-job-run-2", some ⟨1⟩, .running⟩ := by decide +kernel
  rw [hone] at hid
  cases hid
  rw [hfirst] at hcommit
  cases hcommit
  rw [hsecond] at he
  cases he
  exact absurd hpod (by decide)

end CertRuns.Site
