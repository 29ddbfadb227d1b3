import CertRuns.Http.Page
import CertRuns.Proofs.Table

/-!
# What a tracker shows

* `ObjectKey.compare_eq_lt` : the order of runs by namespace and then by name;
* `Tracker.mem_snapshot`, `count_snapshot`, `snapshot_ordered` : the entries that are listed, each
  tracked run once and in order;
* `Tracker.snapshot_eq` : the listing says nothing about the numbers of claims.
-/

namespace CertRuns

theorem compare_string_eq_lt {s s' : String} : compare s s' = .lt ↔ s < s' := by
  show compareOfLessAndEq s s' = .lt ↔ s < s'
  unfold compareOfLessAndEq
  by_cases h : s < s'
  · simp [h]
  · rw [if_neg h]
    split <;> simp [h]

theorem ObjectKey.compare_eq_lt {k k' : ObjectKey} :
    compare k k' = .lt ↔ k.ns < k'.ns ∨ k.ns = k'.ns ∧ k.name < k'.name := by
  show (compare k.ns k'.ns).then (compare k.name k'.name) = .lt ↔ _
  rw [Ordering.then_eq_lt, compare_string_eq_lt, compare_string_eq_lt,
    Std.LawfulEqCmp.compare_eq_iff_eq]

def TrackedRun.unnumbered (run : TrackedRun) : TrackedRun := { run with number := 0 }

namespace Tracker

variable {t t' : Tracker} {key : ObjectKey} {v : TrackedView}

theorem size_eq (t : Tracker) : t.size = t.snapshot.length := (List.length_map ..).symm

theorem keys_snapshot (t : Tracker) : t.snapshot.map (·.key) = t.runs.keys := List.map_map ..

theorem mem_snapshot : v ∈ t.snapshot ↔
    ∃ run, t.runs.get? v.key = some run ∧ run.podName = v.podName ∧ run.state = v.state := by
  unfold snapshot
  rw [List.mem_map]
  constructor
  · rintro ⟨e, he, rfl⟩
    exact ⟨e.2, (Table.mem_entries _ e).1 he, rfl, rfl⟩
  · rintro ⟨run, hrun, hpod, hstate⟩
    refine ⟨(v.key, run), (Table.mem_entries _ _).2 hrun, ?_⟩
    rw [hpod, hstate]

theorem snapshot_ascending (t : Tracker) :
    t.snapshot.Pairwise fun v w => compare v.key w.key = .lt :=
  List.pairwise_map.2 t.runs.ascending

theorem snapshot_ordered (t : Tracker) : t.snapshot.Pairwise fun v w =>
    v.key.ns < w.key.ns ∨ v.key.ns = w.key.ns ∧ v.key.name < w.key.name :=
  t.snapshot_ascending.imp ObjectKey.compare_eq_lt.1

theorem count_snapshot (t : Tracker) (key : ObjectKey) :
    (t.snapshot.map (·.key)).count key = if t.contains key then 1 else 0 := by
  have hnodup : (t.snapshot.map (·.key)).Nodup :=
    List.pairwise_map.2 (t.snapshot_ascending.imp fun hlt => ne_of_compare_lt hlt)
  rw [keys_snapshot] at hnodup ⊢
  simp only [hnodup.count, Table.mem_keys]
  rfl

theorem snapshot_eq (h : ∀ key, (t.runs.get? key).map TrackedRun.unnumbered =
    (t'.runs.get? key).map TrackedRun.unnumbered) : t.snapshot = t'.snapshot := by
  have hmem {t t' : Tracker} (h : ∀ key, (t.runs.get? key).map TrackedRun.unnumbered =
      (t'.runs.get? key).map TrackedRun.unnumbered) {v : TrackedView} (hv : v ∈ t.snapshot) :
      v ∈ t'.snapshot := by
    obtain ⟨run, hrun, hpod, hstate⟩ := mem_snapshot.1 hv
    have hkey := h v.key
    rw [hrun, Option.map_some] at hkey
    obtain ⟨run', hrun', heq⟩ := Option.map_eq_some_iff.1 hkey.symm
    have hpod' := congrArg TrackedRun.podName heq
    have hstate' := congrArg TrackedRun.state heq
    exact mem_snapshot.2 ⟨run', hrun', hpod'.trans hpod, hstate'.trans hstate⟩
  exact eq_of_ascending t.snapshot_ascending t'.snapshot_ascending fun v =>
    ⟨hmem h, hmem fun key => (h key).symm⟩

end Tracker

end CertRuns
