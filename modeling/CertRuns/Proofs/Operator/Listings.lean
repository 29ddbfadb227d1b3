import CertRuns.Proofs.Operator.Failures
import CertRuns.Proofs.Operator.Fates
import CertRuns.Proofs.Operator.Roles
import CertRuns.Proofs.Site.Script

/-!
# Which runs a watcher finds gone

A watcher remembers the runs that it has listed, and starts a reconciliation for every one that the
next listing lacks. It forgets the runs of which it is told that their reconciliation failed; whether
such a run was still there makes no difference.

* `listed?`, `events` : a watcher lists the runs; the runs that are reconciled because of that;
* `stood`, `lost` : the run was in the last listing; the watcher has forgotten it since;
* `contains_known` : the watcher knows the runs that stood and were not lost;
* `vanished_iff` : a run that a listing lacks is reconciled just when the watcher knows it;
* `not_remembered` : a run whose cleanup has failed once is not cleaned up after.
-/

namespace CertRuns.Operator

open Rehearsal (Work)

variable {c c' : Operator} {m : Move} {owner id : Nat} {key : ObjectKey}
  {history : List (Operator × Move)}

/-- The runs that a watcher lists in a move. -/
def listed? (owner id : Nat) : Move → Option (List Run)
  | .resume i (.watcher o ⟨_, _, _, _, _, _, _, .listing⟩) (.ok runs) =>
    if i = id ∧ o = owner then some runs else none
  | _ => none

/-- The runs whose reconciliation is started by a task in a move. -/
def events : Operator × Move → List ObjectKey
  | (c, .resume _ work event) =>
    (work.resume c.controllers c.clock event).started.filterMap fun
      | .reconcile _ _ r => some r.key
      | _ => none
  | _ => []

/-- A watcher begins a listing in a move, and is told that the reconciliation of a run has failed. -/
def forgets (owner id : Nat) (key : ObjectKey) (moment : Operator × Move)
    (earlier : List (Operator × Move)) : Bool :=
  moment.2.subject? == some id &&
    (begins? owner moment).any fun number => reported owner number key earlier

/-- The run was in the last listing of a watcher. -/
def stood (owner id : Nat) (key : ObjectKey) : List (Operator × Move) → Bool
  | [] => false
  | moment :: earlier =>
    match listed? owner id moment.2 with
    | some runs => runs.any (·.key == key)
    | none => stood owner id key earlier

/-- A watcher was told since its last listing that the reconciliation of the run has failed. -/
def lost (owner id : Nat) (key : ObjectKey) : List (Operator × Move) → Bool
  | [] => false
  | moment :: earlier =>
    (listed? owner id moment.2).isNone &&
      (forgets owner id key moment earlier || lost owner id key earlier)

/-! ## Moves of other tasks -/

theorem listed?_eq_none (hm : m.subject? ≠ some id) : listed? owner id m = none := by
  unfold listed?
  split
  · exact if_neg fun h => hm (congrArg some h.1)
  · rfl

theorem forgets_eq_false (hm : m.subject? ≠ some id) :
    forgets owner id key (c, m) history = false := by
  unfold forgets
  rw [Bool.and_eq_false_iff, beq_eq_false_iff_ne]
  exact .inl hm

theorem stood_other (hm : m.subject? ≠ some id) :
    stood owner id key ((c, m) :: history) = stood owner id key history := by
  rw [stood, listed?_eq_none hm]

theorem lost_other (hm : m.subject? ≠ some id) :
    lost owner id key ((c, m) :: history) = lost owner id key history := by
  rw [lost, listed?_eq_none hm, forgets_eq_false hm]
  rfl

/-- A task that is not there yet has not listed anything. -/
theorem stood_fresh (h : Execution Step {} history c) (hi : c.threads[id]? = none) :
    stood owner id key history = false := by
  induction h with
  | start => rfl
  | next _ last ih =>
    obtain ⟨hbefore, hm⟩ := last.absent hi
    rw [stood_other hm, ih hbefore]

/-! ## What a watcher knows -/

theorem mem_failed {d : Controller} {number : Nat} :
    key ∈ d.failed number ↔ (number, key) ∈ d.failures := by
  unfold Controller.failed
  rw [List.mem_map]
  constructor
  · rintro ⟨⟨n, k⟩, hm, rfl⟩
    obtain ⟨hm, hn⟩ := List.mem_filter.mp hm
    rwa [← beq_iff_eq.mp hn]
  · exact fun h => ⟨(number, key), List.mem_filter.mpr ⟨h, beq_self_eq_true number⟩, rfl⟩

theorem stood_unlisted (hl : listed? owner id m = none) :
    stood owner id key ((c, m) :: history) = stood owner id key history := by
  rw [stood, hl]

theorem lost_unlisted (hl : listed? owner id m = none) (hb : begins? owner (c, m) = none) :
    lost owner id key ((c, m) :: history) = lost owner id key history := by
  rw [lost, hl, forgets, hb]
  simp

theorem lost_begins {number : Nat} (hm : m.subject? = some id) (hl : listed? owner id m = none)
    (hb : begins? owner (c, m) = some number) :
    lost owner id key ((c, m) :: history) =
      (reported owner number key history || lost owner id key history) := by
  rw [lost, hl, forgets, hb, hm]
  simp

theorem contains_known (h : Execution Step {} history c) {w : Watcher}
    {answer : Option w.wait.Event}
    (hw : c.progress? id = some (.waiting (.watcher owner w) answer)) :
    w.known.contains key = true ↔
      stood owner id key history = true ∧ lost owner id key history = false := by
  induction h generalizing w with
  | start => cases hw
  | @next history s s' m before last ih =>
    cases last.waits hw with
    | kept hm hbefore =>
      rw [stood_other hm, lost_other hm]
      exact ih hbefore
    | received hbefore =>
      rw [stood_unlisted rfl, lost_unlisted rfl rfl]
      exact ih hbefore
    | @resumed old event hbefore hg =>
      cases hg with
      | @watcher _ w₀ _ event d d' _ hd hr hs =>
        have hknown := ih hbefore
        have begun {number : Nat}
            (hl : listed? owner id (.resume id (.watcher owner w₀) event) = none)
            (hb : begins? owner (s, .resume id (.watcher owner w₀) event) = some number)
            (hk : w.known = (d.failed number).foldl Table.erase w₀.known) :
            w.known.contains key = true ↔
              stood owner id key ((s, .resume id (.watcher owner w₀) event) :: history) = true ∧
                lost owner id key ((s, .resume id (.watcher owner w₀) event) :: history) = false := by
          have hfailed : key ∈ d.failed number ↔ reported owner number key history = true := by
            rw [mem_failed, ← failures_eq hd, mem_failures before]
          rw [hk, Table.contains_foldl_erase, hfailed, hknown, stood_unlisted hl,
            lost_begins rfl hl hb, Bool.or_eq_false_iff, Bool.not_eq_true]
          exact ⟨fun ⟨hr, hs, hl⟩ => ⟨hs, hr, hl⟩, fun ⟨hs, hr, hl⟩ => ⟨hr, hs, hl⟩⟩
        have hb : begins? owner (s, .resume id (.watcher owner w₀) event) = listing? w := by
          simp only [begins?, hs, if_pos]
        cases hr with
        | looks | unseeded | unlisted =>
          rw [stood_unlisted rfl, lost_unlisted rfl hb]
          exact hknown
        | begins | seeds => exact begun rfl hb rfl
        | lists =>
          rw [stood, lost, listed?, if_pos ⟨rfl, rfl⟩, mem_compareListing]
          simp
    | started hi hm =>
      cases hm
      rw [stood_other (fun h => by cases h), stood_fresh before hi]
      simp [Watcher.start, Table.contains]
    | spawned _ _ hs => cases hs

theorem watched (h : Execution Step {} history c) {w : Watcher} {answer : Option w.wait.Event}
    (hw : c.progress? id = some (.waiting (.watcher owner w) answer)) :
    ∃ d, c.controllers[owner]? = some d := by
  induction h generalizing w with
  | start => cases hw
  | next before last ih =>
    cases last.waits hw with
    | kept _ hbefore | received hbefore =>
      obtain ⟨d, hd⟩ := ih hbefore
      exact last.controller hd
    | resumed _ hg =>
      cases hg with
      | watcher hd => exact last.controller hd
    | started _ hm =>
      cases hm with
      | watcher hd => exact last.controller hd
    | spawned _ _ hs => cases hs

theorem listed?_eq_some {runs : List Run} (h : listed? owner id m = some runs) :
    ∃ number ns token ticker known initial seeded, m = .resume id
      (.watcher owner ⟨number, ns, token, ticker, known, initial, seeded, .listing⟩) (.ok runs) := by
  unfold listed? at h
  split at h
  · split at h
    · rename_i hi
      obtain ⟨rfl, rfl⟩ := hi
      cases h
      exact ⟨_, _, _, _, _, _, _, rfl⟩
    · cases h
  · cases h

/-- A run that a listing lacks is reconciled just when it stood in the last listing before, and the
watcher was not told since that its reconciliation has failed. -/
theorem vanished_iff (h : Execution Step {} history c) (hs : c.Step m c') {runs : List Run}
    (hl : listed? owner id m = some runs) (habsent : ∀ run ∈ runs, run.key ≠ key) :
    key ∈ events (c, m) ↔
      stood owner id key history = true ∧ lost owner id key history = false := by
  obtain ⟨number, ns, token, ticker, known, initial, seeded, rfl⟩ := listed?_eq_some hl
  have hw := hs.1
  obtain ⟨d, hd⟩ := watched h hw
  have hstarted : ((Work.watcher owner
      ⟨number, ns, token, ticker, known, initial, seeded, .listing⟩).resume c.controllers c.clock
        (.ok runs)).started = (compareListing known runs initial).1.map fun key =>
          .reconcile owner (some number) (.start key) := by
    simp only [Work.resume, hd]
    rfl
  have hevents : events (c, .resume id
      (.watcher owner ⟨number, ns, token, ticker, known, initial, seeded, .listing⟩) (.ok runs)) =
      (compareListing known runs initial).1 := by
    rw [events, hstarted, List.filterMap_map]
    exact List.filterMap_some
  rw [hevents, mem_events_iff habsent]
  exact contains_known h hw

/-- A watcher finds a run and then finds it gone. The run has got a pod in between. -/
def desertion : List Act :=
  Sample.opening "first" ++ [.watch 0 0 ⟨0⟩, .tick 0, .resume 0] ++ Sample.exchanges 0 2 ++
    Sample.exchanges 1 6 ++
    [.outside (.removeRun Sample.key), .pass ⟨5000000000⟩, .tick 0, .resume 0, .serve 0 .epoch]

def deserted : List (Site × Move) × Site := Site.play desertion

theorem listed?_deserted : listed? 0 0 (deserted.2.act (.resume 0)).1 = some [] := by
  have h : (listed? 0 0 (deserted.2.act (.resume 0)).1).map List.length = some 0 := by
    decide +kernel
  obtain ⟨runs, hl, hn⟩ := Option.map_eq_some_iff.mp h
  rw [hl, List.eq_nil_of_length_eq_zero hn]

/-- The run that is gone is reconciled. -/
theorem vanished_iff_deserted :
    let history := Site.operatorHistory deserted.1
    let last := deserted.2.act (.resume 0)
    Execution Step {} history deserted.2.operator ∧ listed? 0 0 last.1 = some [] ∧
      (∀ run ∈ ([] : List Run), run.key ≠ Sample.key) ∧
      stood 0 0 Sample.key history = true ∧ lost 0 0 Sample.key history = false ∧
      (Sample.key ∈ events (deserted.2.operator, last.1) ↔
        stood 0 0 Sample.key history = true ∧ lost 0 0 Sample.key history = false) := by
  have h : Execution Step {} (Site.operatorHistory deserted.1) deserted.2.operator :=
    Site.operator_execution (Site.play_execution _)
  have hs := Site.act_step deserted.2 (.resume 0)
  have habsent : ∀ run ∈ ([] : List Run), run.key ≠ Sample.key :=
    fun run hrun => absurd hrun List.not_mem_nil
  exact ⟨h, listed?_deserted, habsent, by decide +kernel, by decide +kernel,
    vanished_iff h hs.1 listed?_deserted habsent⟩

def failure? : (wait : Wait) → wait.Event → Option ClusterError
  | .call _, .error e => some e
  | _, _ => none

/-- Calls fail for transient reasons only: the server refuses them, cannot be reached, or reports a
conflict. -/
def transient : Move → Bool
  | .receive _ work event =>
    (failure? work.wait event).all fun
      | .api .. | .transport _ | .conflict .. => true
      | _ => false
  | _ => true

/-- Reconciliations are started by watchers only. -/
def triggered : Move → Bool
  | .start (.reconcile ..) => false
  | _ => true

/-- The run that is gone cannot be read, and the watcher has listed the runs again. -/
def forgotten : List (Site × Move) × Site :=
  Site.play (desertion ++ [.resume 0, .refuse 3 (.api 500 "etcd leader changed"), .resume 3,
    .pass ⟨10000000000⟩, .tick 0, .resume 0, .serve 0 .epoch])

/-- It is not so that a watcher finds every tracked run gone that a listing lacks, even if calls fail
for transient reasons only, and no reconciliation is under way: it has forgotten a run whose cleanup
has failed. -/
theorem not_remembered :
    ¬ ∀ (history : List (Site × Move)) (t t' : Site) (m : Move) (owner id : Nat) (key : ObjectKey)
      (runs : List Run) (e : TrackedRun) (podName : String), Execution Site.Step {} history t →
      t.Step m t' → (∀ moment ∈ history, transient moment.2 = true) →
      (∀ moment ∈ history, triggered moment.2 = true) → listed? owner id m = some runs →
      t.operator.tracked? owner key = some e → e.podName = some podName →
      t.operator.idle owner = true → (∀ run ∈ runs, run.key ≠ key) →
      key ∈ events (t.operator, m) := by
  intro remembered
  have hall : forgotten.1.all (fun moment => transient moment.2 && triggered moment.2) = true := by
    decide +kernel
  have hmoment := List.all_eq_true.mp hall
  have he : forgotten.2.operator.tracked? 0 Sample.key =
      some ⟨1, some "cnf-job-run-1", some ⟨0⟩, .running⟩ := by decide +kernel
  have hl : (listed? 0 0 (forgotten.2.act (.resume 0)).1).map List.length = some 0 := by
    decide +kernel
  obtain ⟨runs, hl, hn⟩ := Option.map_eq_some_iff.mp hl
  obtain rfl := List.eq_nil_of_length_eq_zero hn
  have hmem := remembered forgotten.1 forgotten.2 _ _ 0 0 Sample.key [] _ "cnf-job-run-1"
    (Site.play_execution _) (Site.act_step forgotten.2 (.resume 0))
    (fun moment hm => (Bool.and_eq_true_iff.mp (hmoment moment hm)).1)
    (fun moment hm => (Bool.and_eq_true_iff.mp (hmoment moment hm)).2)
    hl he rfl (by decide +kernel) (fun run hrun => absurd hrun List.not_mem_nil)
  have hnone : events (forgotten.2.operator, (forgotten.2.act (.resume 0)).1) = [] := by
    decide +kernel
  rw [hnone] at hmem
  cases hmem

end CertRuns.Operator
