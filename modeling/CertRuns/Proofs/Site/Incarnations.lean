import CertRuns.Proofs.Site.Keys
import CertRuns.Proofs.Site.StatusWrites

/-!
# Which run a status is written into

A run that is removed and applied again under its key is another run, with an identity of its own.
A reconciliation reads its run once, but its writes, and those of the monitor that it starts, go to
whatever run is stored under the key by then.

* `Move.read?`, `read?` : the run that a reconciliation has read;
* `appliedSince?` : the identity of the run that was last applied under a key since then;
* `status_write_uid_iff` : a write reaches the run that the reconciliation has read just when no
  other run was applied under its key since;
* `not_fenced` : the monitor of a run that is gone may write into the next run with its key.
-/

namespace CertRuns

open Rehearsal (Work)

/-- The run that a reconciliation is given when it asks for it, with the key that it asked for. -/
def Move.read? (id : Nat) : Move → Option (ObjectKey × Run)
  | .receive i (.reconcile _ _ ⟨key, .fetching⟩) (.ok run) => if i = id then some (key, run) else none
  | _ => none

namespace Site

variable {t t' : Site} {m : Move} {history : List (Site × Move)} {id j : Nat} {key : ObjectKey}
  {run : Run}

/-- The run that a reconciliation has read. -/
def read? (id : Nat) (history : List (Site × Move)) : Option (ObjectKey × Run) :=
  history.findSome? (·.2.read? id)

/-- The identity of the run that a user applies under a key in a move. -/
def applied? (key : ObjectKey) : Site × Move → Option String
  | (t, .outside (.applyRun stamp run)) =>
    if run.key = key then some (t.store.applyRun stamp run).2.metadata.uid else none
  | _ => none

/-- The identity of the run that was last applied under a key since a reconciliation read its run;
none if there was none. -/
def appliedSince? (id : Nat) (key : ObjectKey) : List (Site × Move) → Option String
  | [] => none
  | (t, m) :: earlier =>
    if (m.read? id).isSome then none
    else (applied? key (t, m)).or (appliedSince? id key earlier)

/-! ## Identities -/

/-- A run that is stored after a move was applied in it, or was there before with its identity. -/
theorem Step.uid (h : t.Step m t') {r : Run} (hr : t'.store.runs.get? key = some r) :
    applied? key (t, m) = some r.metadata.uid ∨
      applied? key (t, m) = none ∧
        ∃ before, t.store.runs.get? key = some before ∧ before.metadata.uid = r.metadata.uid := by
  have kept (hrew : t.store.Rewrites t'.store) :
      ∃ before, t.store.runs.get? key = some before ∧ before.metadata.uid = r.metadata.uid := by
    have hu := hrew.uid key
    rw [hr, Option.map_some] at hu
    exact Option.map_eq_some_iff.mp hu.symm
  cases m with
  | outside change =>
    have hs : t'.store = change.apply t.store := h.2
    cases change with
    | applyRun stamp new =>
      rw [hs, Outside.get?_applyRun] at hr
      rw [applied?]
      by_cases hk : key = new.key
      · rw [if_pos hk] at hr
        rw [if_pos hk.symm, ← Option.some.inj hr]
        exact .inl rfl
      · rw [if_neg hk] at hr
        rw [if_neg (fun h => hk h.symm)]
        exact .inr ⟨rfl, r, hr, rfl⟩
    | removeRun k =>
      rw [hs, Outside.get?_removeRun] at hr
      split at hr
      · cases hr
      · exact .inr ⟨rfl, r, hr, rfl⟩
    | setPodStatus k status =>
      refine .inr ⟨rfl, kept ?_⟩
      rw [hs]
      exact t.store.setPodStatus_rewrites k status
    | forceConflicts | rejectNextPod =>
      rw [hs] at hr
      exact .inr ⟨rfl, r, hr, rfl⟩
  | _ => exact .inr ⟨rfl, kept (h.rewrites fun _ he => by cases he)⟩

theorem read?_eq_some (h : m.read? id = some (key, run)) :
    ∃ owner told, m = .receive id (.reconcile owner told ⟨key, .fetching⟩) (.ok run) := by
  unfold Move.read? at h
  split at h
  · split at h
    · rename_i hi
      subst hi
      cases h
      exact ⟨_, _, rfl⟩
    · cases h
  · cases h

theorem read?_cons : read? id ((t, m) :: history) = (m.read? id).or (read? id history) := by
  rw [read?, List.findSome?_cons]
  cases m.read? id <;> rfl

/-- A task that has read a run reconciles it. -/
theorem read?_role (h : Execution Step {} history t) (hr : read? id history = some (key, run)) :
    ∃ owner, t.operator.role? id = some (.reconciler owner key) := by
  induction h with
  | start => cases hr
  | @next history s s' m before last ih =>
    rw [read?_cons] at hr
    cases hm : m.read? id with
    | none =>
      rw [hm, Option.none_or] at hr
      obtain ⟨owner, ho⟩ := ih hr
      exact ⟨owner, last.1.role? ho⟩
    | some read =>
      rw [hm, Option.some_or] at hr
      cases hr
      obtain ⟨owner, told, rfl⟩ := read?_eq_some hm
      have ho := Operator.role?_waiting (operator_execution before) last.1.1.1
      exact ⟨owner, last.1.role? ho⟩

/-- The run that is stored under the key that a reconciliation has read: the last one that was
applied since, or else still the one that was read. -/
theorem uid_eq (h : Execution Step {} history t) (hr : read? id history = some (key, run))
    {r : Run} (hs : t.store.runs.get? key = some r) :
    r.metadata.uid = (appliedSince? id key history).getD run.metadata.uid := by
  induction h generalizing r with
  | start => cases hr
  | @next history s s' m before last ih =>
    rw [read?_cons] at hr
    rw [appliedSince?]
    cases hm : m.read? id with
    | some read =>
      rw [hm, Option.some_or] at hr
      cases hr
      obtain ⟨owner, told, rfl⟩ := read?_eq_some hm
      obtain ⟨hget, hstore⟩ := Store.Answers.getRun_ok last.2
      rw [hstore, hget] at hs
      cases hs
      rfl
    | none =>
      rw [hm, Option.none_or] at hr
      rw [if_neg (by rw [Option.isSome_none]; exact Bool.false_ne_true)]
      rcases last.uid hs with ha | ⟨ha, r', hr', hu⟩
      · rw [ha]
        rfl
      · rw [ha, Option.none_or, ← hu, ih hr hr']

/-! ## Writes -/

/-- A write by a reconciliation that has read a run, or by its monitor, is for the run's key. -/
theorem write_key (h : Execution Step {} history t) (hs : t.Step m t')
    (hr : read? id history = some (key, run)) (hj : j = id ∨ t.operator.parent? j = some id)
    {u : StatusUpdate} {stored : Run} (hw : m.write? j = some (u, stored)) : u.key = key := by
  obtain ⟨owner, hid⟩ := read?_role h hr
  have hrole : t.operator.role? j = some (.reconciler owner key) ∨
      t.operator.role? j = some (.monitor owner key) := by
    rcases hj with rfl | hj
    · exact .inl hid
    · rcases parent_role h hj with hother | ⟨o, k, hparent, hmonitor⟩
      · rw [hid] at hother
        cases hother
      · rw [hid] at hparent
        cases hparent
        exact .inr hmonitor
  obtain ⟨work, event, rfl, hwritten⟩ := Move.write?_eq_some hw
  obtain ⟨given, hv, _⟩ := Work.written?_eq_some hwritten
  obtain ⟨w, e, he, hask, _⟩ := answers_updating hv hs.2
  cases he
  rw [Operator.role?_waiting (operator_execution h) hs.1.1.1] at hrole
  exact (keyed h hs.1.1.1).update hask
    (hrole.imp (fun h => Option.some.inj h) fun h => Option.some.inj h)

/-- A write by a reconciliation that has read a run, or by its monitor, reaches that run just when
no other run was applied under its key since it was read; otherwise it changes the status of the
other run. -/
theorem status_write_uid_iff (h : Execution Step {} history t) (hs : t.Step m t')
    (hr : read? id history = some (key, run)) (hj : j = id ∨ t.operator.parent? j = some id)
    {u : StatusUpdate} {stored : Run} (hw : m.write? j = some (u, stored)) :
    ∃ before, t.store.runs.get? key = some before ∧ t'.store.runs.get? key = some stored ∧
      stored.status = u.change before.status ∧ stored.metadata.uid = before.metadata.uid ∧
      (before.metadata.uid = run.metadata.uid ↔
        ∀ uid, appliedSince? id key history = some uid → uid = run.metadata.uid) := by
  obtain ⟨before, hb, hstored, hruns⟩ := write_stored h hs hw
  rw [write_key h hs hr hj hw] at hb hruns
  refine ⟨before, hb, ?_, ?_, ?_, ?_⟩
  · rw [hruns, Table.get?_insert_self]
  · rw [hstored]
    rfl
  · rw [hstored]
    rfl
  · rw [uid_eq h hr hb]
    cases appliedSince? id key history with
    | none => exact ⟨fun _ => nofun, fun _ => rfl⟩
    | some uid =>
      rw [Option.getD_some]
      exact ⟨fun h _ hu => (Option.some.inj hu) ▸ h, fun h => h uid rfl⟩

/-- The first pod of a run has come to its end and its monitor is about to write that, when the run
is removed, cleaned up after, applied and deployed again. -/
def replaced : List (Site × Move) × Site :=
  play (Sample.opening "first" ++
    (.reconcile 0 Sample.key :: Sample.exchanges 0 6) ++
    [.outside (.setPodStatus ⟨"ops", "cnf-job-run-1"⟩ { phase := .succeeded }),
      .tick 1, .resume 1, .serve 1 .epoch, .resume 1, .outside (.removeRun Sample.key)] ++
    (.reconcile 0 Sample.key :: Sample.exchanges 2 2) ++
    [.outside (.applyRun .epoch (Sample.run "second"))] ++
    (.reconcile 0 Sample.key :: Sample.exchanges 3 6) ++
    [.serve 1 .epoch, .resume 1])

theorem read?_replaced :
    ∃ run, read? 0 replaced.1 = some (Sample.key, run) ∧ run.metadata.uid = "first" := by
  have h : ((read? 0 replaced.1).map fun read => (read.1, read.2.metadata.uid)) =
      some (Sample.key, "first") := by decide +kernel
  obtain ⟨⟨key, run⟩, hr, he⟩ := Option.map_eq_some_iff.mp h
  obtain ⟨hkey, huid⟩ := Prod.mk.inj he
  rw [show key = Sample.key from hkey] at hr
  exact ⟨run, hr, huid⟩

theorem write?_replaced :
    ∃ u stored, (replaced.2.act (.serve 1 .epoch)).1.write? 1 = some (u, stored) ∧
      stored.metadata.uid = "second" ∧ stored.status.phase = .finished := by
  have h : (((replaced.2.act (.serve 1 .epoch)).1.write? 1).map fun write =>
      (write.2.metadata.uid, write.2.status.phase)) = some ("second", .finished) := by
    decide +kernel
  obtain ⟨⟨u, stored⟩, hw, he⟩ := Option.map_eq_some_iff.mp h
  obtain ⟨huid, hphase⟩ := Prod.mk.inj he
  exact ⟨u, stored, hw, huid, hphase⟩

theorem parent?_replaced : replaced.2.operator.parent? 1 = some 0 := by decide +kernel

/-- The monitor of the first run is late, and another run was applied since. -/
theorem status_write_uid_iff_replaced :
    let last := replaced.2.act (.serve 1 .epoch)
    appliedSince? 0 Sample.key replaced.1 = some "second" ∧
      ∃ run u stored, Execution Step {} replaced.1 replaced.2 ∧ replaced.2.Step last.1 last.2 ∧
        read? 0 replaced.1 = some (Sample.key, run) ∧ replaced.2.operator.parent? 1 = some 0 ∧
        last.1.write? 1 = some (u, stored) ∧
        ∃ before, replaced.2.store.runs.get? Sample.key = some before ∧
          last.2.store.runs.get? Sample.key = some stored ∧
          stored.status = u.change before.status ∧ stored.metadata.uid = before.metadata.uid ∧
          (before.metadata.uid = run.metadata.uid ↔
            ∀ uid, appliedSince? 0 Sample.key replaced.1 = some uid → uid = run.metadata.uid) := by
  have h : Execution Step {} replaced.1 replaced.2 := play_execution _
  have hs := act_step replaced.2 (.serve 1 .epoch)
  obtain ⟨run, hr, _⟩ := read?_replaced
  obtain ⟨u, stored, hw, _⟩ := write?_replaced
  refine ⟨by decide +kernel, run, u, stored, h, hs, hr, parent?_replaced, hw, ?_⟩
  exact status_write_uid_iff h hs hr (.inr parent?_replaced) hw

/-- It is not so that a reconciliation and its monitor write only into the run that was read: the
monitor of the first run writes its final phase into the second one. -/
theorem not_fenced :
    ¬ ∀ (history : List (Site × Move)) (t t' : Site) (m : Move) (id j : Nat) (key : ObjectKey)
      (run stored : Run) (u : StatusUpdate), Execution Step {} history t → t.Step m t' →
      read? id history = some (key, run) → (j = id ∨ t.operator.parent? j = some id) →
      m.write? j = some (u, stored) → stored.metadata.uid = run.metadata.uid := by
  intro fenced
  obtain ⟨run, hr, hfirst⟩ := read?_replaced
  obtain ⟨u, stored, hw, hsecond, _⟩ := write?_replaced
  have := fenced _ _ _ _ 0 1 Sample.key run stored u (play_execution _) (act_step _ _) hr
    (.inr parent?_replaced) hw
  rw [hfirst, hsecond] at this
  exact absurd this (by decide)

end Site

end CertRuns
