import CertRuns.Proofs.Control.StatusUpdate
import CertRuns.Proofs.Operator.Updates
import CertRuns.Proofs.Site.Script

/-!
# Writes of a status

A change of a status reads the run, works out the new status and writes it under the version that
it has read. Versions are given out once, so a write that is accepted finds the very run that was
read: its status is the change of the status stored just before it.

* `Updating.Sound` : what a change has read, or is about to write, comes from a run that was stored;
* `updating_sound` : this holds of every change under way;
* `updates_serializable` : what the accepted writes do, and which writes a change makes.
-/

namespace CertRuns

open Rehearsal (Work)

/-! ## Changes under way -/

/-- What a change has read was stored once, and what it is about to write is its change of that. -/
def Updating.Sound (s : Store) : Updating → Prop
  | ⟨⟨key, _, _, _, .reading⟩, some (.ok run)⟩ => s.Copy run ∧ run.key = key
  | ⟨⟨key, change, _, _, .writing w⟩, _⟩ =>
    ∃ run, s.Copy run ∧ run.key = key ∧ w = { run with status := change run.status }
  | _ => True

namespace Updating.Sound

variable {s s' : Store} {u v : StatusUpdate}

theorem of_reading (h : u.stage = .reading) : Updating.Sound s ⟨u, none⟩ := by
  obtain ⟨key, change, policy, attempt, stage⟩ := u
  cases h
  trivial

theorem of_rest {key : ObjectKey} {change : RunStatus → RunStatus} {policy : RetryPolicy}
    {attempt : Nat} {now : Instant} {pause? : Option Duration} :
    Updating.Sound s ⟨⟨key, change, policy, attempt, .rest now pause?⟩, none⟩ := by
  cases pause? <;> trivial

theorem later {u : Updating} (h : u.Sound s) (hl : s.Later s') : u.Sound s' := by
  obtain ⟨⟨key, change, policy, attempt, stage⟩, answer⟩ := u
  cases stage with
  | reading =>
    cases answer with
    | none => trivial
    | some event =>
      cases event with
      | error e => trivial
      | ok run => exact ⟨h.1.later hl, h.2⟩
  | writing w =>
    obtain ⟨run, hc, hk, hw⟩ := h
    exact ⟨run, hc.later hl, hk, hw⟩
  | drawing | resting | panicked => trivial

/-- A change that is given what it waits for. -/
theorem receive {event : u.wait.Event} (h : Updating.Sound s ⟨u, none⟩) (hs : s.Sound)
    (ha : s.Answers s' u.wait event) : Updating.Sound s' ⟨u, some event⟩ := by
  have hl : s.Later s' := (ha.rewrites.changes hs).later
  obtain ⟨key, change, policy, attempt, stage⟩ := u
  cases stage with
  | reading =>
    cases event with
    | error e => trivial
    | ok run =>
      obtain ⟨hrun, _⟩ := Store.Answers.getRun_ok ha
      exact ⟨(hs.copy hrun).later hl, hs.keyed hrun⟩
  | writing w =>
    obtain ⟨run, hc, hk, hw⟩ := h
    exact ⟨run, hc.later hl, hk, hw⟩
  | drawing | resting | panicked => trivial

theorem resume {event : u.wait.Event} {now : Instant} (h : Updating.Sound s ⟨u, some event⟩)
    (hu : u.resume now event = .going v) : Updating.Sound s ⟨v, none⟩ := by
  cases StatusUpdate.resumes hu with
  | read => exact ⟨_, h.1, h.2, rfl⟩
  | overtaken | rested => trivial
  | paused | drawn => exact of_rest

end Updating.Sound

namespace Site

variable {t t' : Site} {m : Move} {history : List (Site × Move)}

theorem answers_cast {s s' : Store} {w w' : Wait} (h : w = w') {event : w.Event}
    (ha : s.Answers s' w event) :
    ∃ e, Wait.cast h (some event) = some e ∧ s.Answers s' w' e := by
  cases h
  exact ⟨event, rfl, ha⟩

/-- The answer to a task that makes a change is one to the change. -/
theorem answers_updating {s s' : Store} {work : Work} {event : work.wait.Event} {u : Updating}
    (hu : work.updating? (some event) = some u) (ha : s.Answers s' work.wait event) :
    ∃ v e, u = ⟨v, some e⟩ ∧ work.updating? none = some ⟨v, none⟩ ∧ s.Answers s' v.wait e := by
  obtain ⟨hw, hanswer, hother⟩ := Work.updating?_eq_some hu
  obtain ⟨e, he, ha⟩ := answers_cast hw ha
  obtain ⟨v, answer⟩ := u
  refine ⟨v, e, ?_, ?_, ha⟩
  · rw [show answer = some e from hanswer.trans he]
  · rw [hother none, Wait.cast_none]

theorem updating_sound (h : Execution Step {} history t) {id : Nat} {work : Work}
    {answer : Option work.wait.Event} (hw : t.operator.progress? id = some (.waiting work answer))
    {u : Updating} (hu : work.updating? answer = some u) : u.Sound t.store := by
  refine waiting_induction
    (P := fun s work answer => ∀ u, work.updating? answer = some u → u.Sound s)
    ?_ ?_ ?_ ?_ ?_ h hw u hu
  · intro s s' work answer hl hp u hu
    exact (hp u hu).later hl
  · intro s c work hm u hu
    obtain ⟨_, ha, _⟩ := Work.updating?_eq_some hu
    obtain ⟨u, answer⟩ := u
    obtain rfl : answer = none := ha.trans (Wait.cast_none _)
    exact .of_reading (hm.updating hu)
  · intro s s' work event hs ha hp u hu
    obtain ⟨v, e, rfl, hask, ha⟩ := answers_updating hu ha
    exact (hp _ hask).receive hs ha
  · intro s cs now work event work' hg hp u' hu
    obtain ⟨_, ha, _⟩ := Work.updating?_eq_some hu
    obtain ⟨v, answer⟩ := u'
    obtain rfl : answer = none := ha.trans (Wait.cast_none _)
    rcases hg.updating hu with hr | ⟨u, e, hu, he⟩
    · exact .of_reading hr
    · exact (hp _ hu).resume he
  · intro s cs now work event new hs hp u hu
    rw [hs.updating] at hu
    cases hu

/-- A write that is accepted finds the run that was read. -/
theorem written_eq {s s' : Store} {u : StatusUpdate} {event : u.wait.Event} {stored : Run}
    (hu : Updating.Sound s ⟨u, none⟩) (ha : s.Answers s' u.wait event)
    (hw : Updating.written? ⟨u, some event⟩ = some stored) :
    ∃ before, s.runs.get? u.key = some before ∧
      stored = before.rewritten (u.change before.status) s'.version ∧
      s'.version = s.version + 1 ∧ s'.runs = s.runs.insert u.key stored := by
  obtain ⟨key, change, policy, attempt, stage⟩ := u
  cases stage with
  | reading | drawing | resting | panicked => cases hw
  | writing w =>
    cases event with
    | error e => cases hw
    | ok run =>
      cases hw
      obtain ⟨read, hcopy, hkey, rfl⟩ := hu
      rcases ha with ⟨stamp, ha⟩ | ⟨⟨e, he⟩, _⟩
      · obtain ⟨before, hb, hv, hstored, hver, hruns⟩ := Store.updateRunStatus_ok ha
        obtain rfl : before = read := hcopy.same hb hv
        have hkey' : ({ before with status := change before.status } : Run).key = key := hkey
        rw [hkey'] at hb hruns
        exact ⟨before, hb, hstored, hver, hruns⟩
      · cases he

/-- A write of a task that is accepted changes the run that is stored at that moment. -/
theorem write_stored (h : Execution Step {} history t) (hs : t.Step m t') {id : Nat}
    {u : StatusUpdate} {stored : Run} (hw : m.write? id = some (u, stored)) :
    ∃ before, t.store.runs.get? u.key = some before ∧
      stored = before.rewritten (u.change before.status) t'.store.version ∧
      t'.store.runs = t.store.runs.insert u.key stored := by
  obtain ⟨work, event, rfl, hwritten⟩ := Move.write?_eq_some hw
  obtain ⟨given, hv, hrun⟩ := Work.written?_eq_some hwritten
  obtain ⟨w, e, he, hask, ha⟩ := answers_updating hv hs.2
  cases he
  obtain ⟨before, hb, hstored, _, hruns⟩ := written_eq (updating_sound h hs.1.1.1 hask) ha hrun
  exact ⟨before, hb, hstored, hruns⟩

/-- A change that returns a run has had one write accepted, that of this run; one that returns an
error has had none. -/
theorem writes_of_return (h : Execution Step {} history t) (hs : t.Step m t') {id : Nat}
    {u : StatusUpdate} {result : Except ClusterError Run}
    (hr : m.return? t.operator.clock id = some (u, result)) :
    Operator.writesSince id (operatorHistory history) = Operator.writesOf u result := by
  rw [Operator.writesSince_eq (operator_execution h)]
  cases m with
  | resume i work event =>
    rw [Move.return?] at hr
    split at hr
    · rename_i hi
      subst hi
      rw [Operator.pending_waiting hs.1.1]
      cases result with
      | ok stored =>
        rw [Work.returned?_ok.mp hr]
        rfl
      | error e =>
        cases hw : work.written? (some event) with
        | none => rfl
        | some write =>
          rw [Work.returned?_ok.mpr hw] at hr
          cases hr
    · cases hr
  | _ => cases hr

/-- Changes of statuses are serializable. A write that is accepted changes the stored run from the
status just before it, and nothing but status and version. A change that returns a run has had one
write accepted, that of this run; one that returns an error has had none. -/
theorem updates_serializable (h : Execution Step {} history t) (hs : t.Step m t') (id : Nat) :
    (∀ u stored, m.write? id = some (u, stored) →
      ∃ before, t.store.runs.get? u.key = some before ∧
        stored = before.rewritten (u.change before.status) t'.store.version ∧
        t'.store.runs = t.store.runs.insert u.key stored) ∧
    ∀ u result, m.return? t.operator.clock id = some (u, result) →
      Operator.writesSince id (operatorHistory history) = Operator.writesOf u result :=
  ⟨fun _ _ hw => write_stored h hs hw, fun _ _ hr => writes_of_return h hs hr⟩

/-- Two tasks change the status of one run; both have read it, and the first has written. The third
task has read it since. -/
def contested : List (Site × Move) × Site :=
  let phase (p : Phase) : Act := .update Sample.key { steps := 1 } fun s => { s with phase := p }
  play (Sample.opening "first" ++
    [phase .deploying, phase .running, phase .finished,
      .serve 0 .epoch, .serve 1 .epoch, .resume 0, .resume 1, .serve 0 .epoch, .serve 1 .epoch,
      .serve 2 .epoch, .resume 2])

/-- The third task writes on top of the first one; the second one is refused. -/
theorem updates_serializable_contested :
    let last := contested.2.act (.serve 2 .epoch)
    Execution Step {} contested.1 contested.2 ∧ contested.2.Step last.1 last.2 ∧
      ((last.1.write? 2).map fun write => write.2.status.phase) = some .finished ∧
      (∀ u stored, last.1.write? 2 = some (u, stored) →
        ∃ before, contested.2.store.runs.get? u.key = some before ∧
          stored = before.rewritten (u.change before.status) last.2.store.version ∧
          last.2.store.runs = contested.2.store.runs.insert u.key stored) ∧
      ∀ u result, last.1.return? contested.2.operator.clock 2 = some (u, result) →
        Operator.writesSince 2 (operatorHistory contested.1) = Operator.writesOf u result := by
  have h : Execution Step {} contested.1 contested.2 := play_execution _
  have hs := act_step contested.2 (.serve 2 .epoch)
  refine ⟨h, hs, ?_, updates_serializable h hs 2⟩
  decide +kernel

end Site

end CertRuns
