import CertRuns.Proofs.Cluster.Operations
import CertRuns.Proofs.Cluster.Versions

/-!
# How a store keeps its books

Whatever operations a store has been through, its objects stand in order and its counts agree with
what has happened.

* `Ordered` : every object stands under its own key, with a version that was given out and that no
  other object carries; `Ordered.alters`, `ordered` : operations keep this;
* `earlier` : the stores that a history has gone through;
* `Accounted` : the counts agree with the history; `accounted`;
* `well_kept` : both, and what the next operation does if it writes or fails.
-/

namespace CertRuns.Store

variable {s s' : Store} {o : Operation} {place : Place} {m : ObjectMeta}
  {history : List (Store × Operation)}

/-! ## Objects in order -/

/-- The objects of a store stand in order. -/
structure Ordered (s : Store) : Prop where
  keyed : s.Keyed
  /-- Versions are numbers from 1 to the counter. -/
  numbered : ∀ place m, s.metadata? place = some m →
    ∃ n, 1 ≤ n ∧ n ≤ s.version ∧ m.resourceVersion = Decimal.text n
  /-- No two objects carry the same version. -/
  distinct : ∀ place place' m m', s.metadata? place = some m → s.metadata? place' = some m' →
    m.resourceVersion = m'.resourceVersion → place = place'

namespace Ordered

theorem empty : Ordered {} where
  keyed := by rintro ⟨_ | _, key⟩ m hm <;> cases hm
  numbered := by rintro ⟨_ | _, key⟩ m hm <;> cases hm
  distinct := by rintro ⟨_ | _, key⟩ place' m m' hm <;> cases hm

/-- A version above the counter is nobody's. -/
theorem version_ne (hs : s.Ordered) {n : Nat} (hn : s.version < n)
    (hm : s.metadata? place = some m) : m.resourceVersion ≠ Decimal.text n := by
  obtain ⟨k, _, hk, hversion⟩ := hs.numbered place m hm
  intro he
  have heq : k = n := Decimal.text_injective (hversion.symm.trans he)
  omega

theorem fewer (hs : s.Ordered) (hv : s.version ≤ s'.version)
    (hm : ∀ place m, s'.metadata? place = some m → s.metadata? place = some m) : s'.Ordered where
  keyed place m h := hs.keyed place m (hm place m h)
  numbered place m h := by
    obtain ⟨n, hone, hn, hversion⟩ := hs.numbered place m (hm place m h)
    exact ⟨n, hone, Nat.le_trans hn hv, hversion⟩
  distinct place place' m m' h h' := hs.distinct place place' m m' (hm place m h) (hm place' m' h')

theorem alters {target? : Option Place} {ok : Bool} (hs : s.Ordered)
    (h : s.Alters s' target? ok) : s'.Ordered := by
  cases h with
  | kept _ hv hm => exact hs.fewer hv fun p old h => hm p ▸ h
  | removed place _ hv hm =>
    refine hs.fewer hv fun p old h => ?_
    rw [hm] at h
    split at h
    · cases h
    · exact h
  | written place new _ hk hv hn hm =>
    have hcases {p : Place} {x : ObjectMeta} (h : s'.metadata? p = some x) :
        p = place ∧ x = new ∨ s.metadata? p = some x := by
      rw [hm] at h
      split at h
      · exact .inl ⟨by assumption, (Option.some.inj h).symm⟩
      · exact .inr h
    have hfresh {p : Place} {x : ObjectMeta} (h : s.metadata? p = some x) :
        x.resourceVersion ≠ new.resourceVersion := by
      rw [hn]
      exact hs.version_ne (Nat.lt_succ_self _) h
    refine ⟨fun p x h => ?_, fun p x h => ?_, fun p p' x x' h h' he => ?_⟩
    · rcases hcases h with ⟨rfl, rfl⟩ | h
      · exact hk
      · exact hs.keyed p x h
    · rcases hcases h with ⟨rfl, rfl⟩ | h
      · exact ⟨s.version + 1, Nat.succ_pos _, Nat.le_of_eq hv.symm, hn⟩
      · obtain ⟨n, hone, hle, hversion⟩ := hs.numbered p x h
        exact ⟨n, hone, by omega, hversion⟩
    · rcases hcases h with ⟨rfl, rfl⟩ | h <;> rcases hcases h' with ⟨rfl, rfl⟩ | h'
      · rfl
      · exact absurd he.symm (hfresh h')
      · exact absurd he (hfresh h)
      · exact hs.distinct p p' x x' h h' he

end Ordered

theorem ordered (h : Execution Step {} history s) : s.Ordered := by
  induction h with
  | start => exact .empty
  | next _ last ih =>
    rw [last]
    exact ih.alters (operate_alters ih.keyed _)

/-- In the stores that a history has gone through, the objects stood in order, and no more versions
had been given out than now. -/
theorem earlier (h : Execution Step {} history s) :
    ∀ moment ∈ history, moment.1.Ordered ∧ moment.1.version ≤ s.version := by
  induction h with
  | start => exact fun moment hm => by cases hm
  | @next history s s' o before last ih =>
    have hle : s.version ≤ s'.version := by
      rw [last, (s.operate_entered o).version]
      exact Nat.le_add_right _ _
    intro moment hm
    rcases List.mem_cons.mp hm with rfl | hm
    · exact ⟨ordered before, hle⟩
    · exact ⟨(ih moment hm).1, Nat.le_trans (ih moment hm).2 hle⟩

/-! ## Counts -/

/-- The counts of a store agree with its history. -/
structure Accounted (history : List (Store × Operation)) (s : Store) : Prop where
  /-- One version for each operation that takes one. Below `2 ^ 64` of them, 64 bits will do. -/
  version_eq : s.version = history.countP fun moment => moment.1.takesVersion moment.2
  /-- A pod that was created is there, or was deleted. -/
  podsCreated_eq : s.podsCreated =
    s.pods.size + history.countP fun moment => moment.2.isDeletion && moment.1.accepts moment.2
  statusWrites_eq : s.statusWrites =
    history.countP fun moment => moment.2.isStatusWrite && moment.1.accepts moment.2

theorem accounted (h : Execution Step {} history s) : Accounted history s := by
  induction h with
  | start => exact ⟨rfl, rfl, rfl⟩
  | @next history s s' o _ last ih =>
    obtain ⟨hversion, hpods, hwrites⟩ := s.operate_entered o
    rw [← last] at hversion hpods hwrites
    refine ⟨?_, ?_, ?_⟩
    · rw [countP_cons_toNat, hversion, ih.version_eq]
    · rw [countP_cons_toNat]
      have hcreated := ih.podsCreated_eq
      simp only
      omega
    · rw [countP_cons_toNat, hwrites, ih.statusWrites_eq]

/-! ## The next operation -/

/-- The objects of a store stand in order and its counts agree with its history. An operation that
writes an object gives it a version that no object has ever carried. One that fails leaves all
objects as they are, except that a conflict that was asked for gives the run another version. -/
theorem well_kept (h : Execution Step {} history s) (o : Operation) :
    s.Ordered ∧ Accounted history s ∧
      (∀ place, o.target? = some place → s.accepts o = true →
        ∃ m, (s.operate o).1.metadata? place = some m ∧
          m.resourceVersion = Decimal.text (s.version + 1) ∧
          ∀ moment ∈ (s, o) :: history, ∀ place' old, moment.1.metadata? place' = some old →
            old.resourceVersion ≠ m.resourceVersion) ∧
      (s.accepts o = false →
        (s.operate o).1.pods = s.pods ∧
          (s.operate o).1.runs =
            match s.renewed? o with
            | none => s.runs
            | some run => s.runs.insert run.key (run.rewritten run.status (s.version + 1))) := by
  have hs := ordered h
  refine ⟨hs, accounted h, fun place ht ha => ?_, operate_failed hs.keyed⟩
  obtain ⟨m, hm, hversion⟩ := operate_written hs.keyed ht ha
  refine ⟨m, hm, hversion, fun moment hmem place' old hold => ?_⟩
  have hbefore : moment.1.Ordered ∧ moment.1.version ≤ s.version := by
    rcases List.mem_cons.mp hmem with rfl | hmem
    · exact ⟨hs, Nat.le_refl _⟩
    · exact earlier h moment hmem
  rw [hversion]
  exact hbefore.1.version_ne (by omega) hold

/-- A write of the status of a run that names a version. -/
def phaseWrite (version : String) (phase : Phase) : Operation :=
  .call .epoch <| .updateRunStatus {
    metadata := { ns := "ops", name := "run-1", resourceVersion := version }
    status := { phase } }

/-- Runs and a pod come, go and come again. In between, a pod is asked for twice, a pod that is not
there is reported about, and a status is written under a version that is no longer the stored one. -/
def busy : List Operation :=
  let run (name : String) : Run := { metadata := { ns := "ops", name, uid := name } }
  let pod : Pod := { metadata := { ns := "ops", name := "pod-1" } }
  [.outside (.applyRun .epoch (run "run-1")), .outside (.applyRun .epoch (run "run-2")),
    .call .epoch (.createPod pod), .call .epoch (.createPod pod),
    .outside (.setPodStatus ⟨"ops", "pod-2"⟩ {}),
    .outside (.setPodStatus ⟨"ops", "pod-1"⟩ { phase := .running }),
    .outside (.forceConflicts 1), phaseWrite "1" .deploying, phaseWrite "1" .deploying,
    phaseWrite "6" .deploying,
    .call .epoch (.deletePod ⟨"ops", "pod-1"⟩), .outside (.removeRun ⟨"ops", "run-2"⟩),
    .outside (.applyRun .epoch (run "run-2")), .call .epoch (.createPod pod),
    .outside (.forceConflicts 1)]

/-- Nine versions were given out. A report about the pod gives it the tenth one; so does a conflict
that was asked for to the run. -/
theorem well_kept_busy :
    let history := (record busy).1
    let s := (record busy).2
    let report := Operation.outside (.setPodStatus ⟨"ops", "pod-1"⟩ { phase := .succeeded })
    Execution Step {} history s ∧
      s.version = 9 ∧ s.podsCreated = 2 ∧ s.pods.size = 1 ∧ s.statusWrites = 1 ∧
      s.Ordered ∧ Accounted history s ∧
      (∃ m, (s.operate report).1.metadata? ⟨.pod, ⟨"ops", "pod-1"⟩⟩ = some m ∧
        m.resourceVersion = Decimal.text 10 ∧
        ∀ moment ∈ (s, report) :: history, ∀ place old, moment.1.metadata? place = some old →
          old.resourceVersion ≠ m.resourceVersion) ∧
      (s.operate (phaseWrite "7" .running)).1.pods = s.pods ∧
      ∃ run, s.renewed? (phaseWrite "7" .running) = some run ∧
        (s.operate (phaseWrite "7" .running)).1.runs =
          s.runs.insert run.key (run.rewritten run.status 10) := by
  have h : Execution Step {} (record busy).1 (record busy).2 := record_execution busy
  have hversion : (record busy).2.version = 9 := by decide +kernel
  have hreport : (record busy).2.accepts
      (.outside (.setPodStatus ⟨"ops", "pod-1"⟩ { phase := .succeeded })) = true := by
    decide +kernel
  have hfails : (record busy).2.accepts (phaseWrite "7" .running) = false := by decide +kernel
  have hrenewed : ((record busy).2.renewed? (phaseWrite "7" .running)).isSome = true := by
    decide +kernel
  obtain ⟨run, hrun⟩ := Option.isSome_iff_exists.mp hrenewed
  obtain ⟨hordered, haccounted, hwritten, _⟩ :=
    well_kept h (.outside (.setPodStatus ⟨"ops", "pod-1"⟩ { phase := .succeeded }))
  obtain ⟨_, _, _, hkept⟩ := well_kept h (phaseWrite "7" .running)
  obtain ⟨hpods, hruns⟩ := hkept hfails
  rw [hrun, hversion] at hruns
  rw [hversion] at hwritten
  exact ⟨h, hversion, by decide +kernel, by decide +kernel, by decide +kernel, hordered, haccounted,
    hwritten _ rfl hreport, hpods, run, hrun, hruns⟩

end CertRuns.Store
