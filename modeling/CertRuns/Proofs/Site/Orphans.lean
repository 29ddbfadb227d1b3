import CertRuns.Proofs.Site.Sharing

/-!
# No pod is orphaned

When a controller has no reconciliation under way, then somebody is in charge of every pod that it
has created: the entry of the run names it. Pods that were still on their way when their run was
cleaned up after are gone.

* `creation_role` : who has created a pod is a task that is there;
* `only_entry` : no other run's entry names a pod that a lone controller has created;
* `no_orphans` : every pod of an idle controller has its entry, and late pods were deleted.
-/

namespace CertRuns

open Rehearsal (Work)

/-- The run and the pod of a reconciliation that goes on after it has got hold of a pod. -/
def Move.found? (owner id : Nat) : Move → Option (ObjectKey × ObjectKey)
  | .resume i (.reconcile o _ ⟨key, stage⟩) event =>
    if i = id ∧ o = owner then (Reconcile.found? key stage event).map (key, ·) else none
  | _ => none

namespace Site

variable {t : Site} {history : List (Site × Move)} {owner : Nat} {key k : ObjectKey}
  {pod : ObjectKey}

theorem creation_role (h : Execution Step {} history t) {moment : Site × Move}
    (hm : moment ∈ history) {role : Role} (hc : moment.2.creator? pod = some role) :
    ∃ id, t.operator.role? id = some role := by
  induction h with
  | start => cases hm
  | @next history s s' m before last ih =>
    rcases List.mem_cons.mp hm with rfl | hm
    · cases m with
      | receive id work event =>
        rw [Move.creator?] at hc
        split at hc
        · cases hc
          exact ⟨id, last.1.role? (Operator.role?_waiting (operator_execution before) last.1.1.1)⟩
        · cases hc
      | _ => cases hc
    · obtain ⟨id, hid⟩ := ih hm
      exact ⟨id, last.1.role? hid⟩

/-- The entry of no other run names a pod that was created by the only controller, as long as nobody
else writes statuses and the counter has not wrapped around. -/
theorem only_entry (h : Execution Step {} history t)
    (hm : ∀ moment ∈ history, moment.2.meddles = false)
    (honly : ∀ id o k, t.operator.role? id = some (.reconciler o k) → o = owner)
    (hwrap : ∀ moment ∈ operatorHistory history, Operator.wraps owner moment = false)
    (hc : creator? pod history = some (.reconciler owner key)) {o : Nat} {e : TrackedRun}
    (he : t.operator.tracked? o k = some e) (hp : e.podName = some pod.name)
    (hns : k.ns = pod.ns) : k = key := by
  obtain ⟨x, hxm, o', hx⟩ := (provenance h hm).entries he hp
  rw [hns] at hx
  obtain ⟨y, hym, hy⟩ := List.exists_of_findSome?_eq_some hc
  obtain ⟨id, hid⟩ := creation_role h hxm hx
  obtain rfl := honly id o' k hid
  -- otherwise the pod was created for both runs, and the counter has wrapped around in between
  refine Classical.byContradiction fun hk => ?_
  obtain ⟨moment, hmoment, hw⟩ := (remade h hxm hym hx hy hk).2 rfl
  rw [hwrap moment hmoment] at hw
  cases hw

theorem found?_eq_some {m : Move} {id : Nat} (h : m.found? owner id = some (key, pod)) :
    ∃ told stage event, m = .resume id (.reconcile owner told ⟨key, stage⟩) event ∧
      Reconcile.found? key stage event = some pod := by
  unfold Move.found? at h
  split at h
  · split at h
    · rename_i hi
      obtain ⟨rfl, rfl⟩ := hi
      obtain ⟨p, hp, he⟩ := Option.map_eq_some_iff.mp h
      cases he
      exact ⟨_, _, _, rfl, hp⟩
    · cases h
  · cases h

/-- When no reconciliation of a controller is under way, the entry of its run names every pod that the
controller has created and that is there; if the controller is the only one, no other entry does. A
pod that the controller got hold of after its run was cleaned up after was deleted. -/
theorem no_orphans (h : Execution Step {} history t)
    (hstrand : ∀ moment ∈ history, strands owner moment = false)
    (hidle : t.operator.idle owner = true) :
    (∀ pod key, t.store.pods.contains pod = true →
      creator? pod history = some (.reconciler owner key) →
      pod.ns = key.ns ∧
        (∃ e, t.operator.tracked? owner key = some e ∧ e.podName = some pod.name) ∧
        ((∀ moment ∈ history, moment.2.meddles = false) →
          (∀ id o k, t.operator.role? id = some (.reconciler o k) → o = owner) →
          (∀ moment ∈ operatorHistory history, Operator.wraps owner moment = false) →
          ∀ o k e, t.operator.tracked? o k = some e → e.podName = some pod.name →
            k.ns = pod.ns → k = key)) ∧
      ∀ (later earlier : List (Site × Move)) (moment : Site × Move) (id : Nat)
        (key pod : ObjectKey), history = later ++ moment :: earlier →
        moment.2.found? owner id = some (key, pod) →
        Operator.cleanedSince owner key id (operatorHistory earlier) = true →
        ∃ moment ∈ later, discards id pod moment = true := by
  constructor
  · intro pod key hhere hc
    obtain ⟨hns, hplaced⟩ := placed h hstrand hhere hc
    refine ⟨hns, ?_, fun hm honly hwrap o k e he hp hk => only_entry h hm honly hwrap hc he hp hk⟩
    cases hplaced with
    | created hw => exact (Operator.idle_waiting hidle hw).elim
    | tracked he _ hp => exact ⟨_, he, hp⟩
    | deleting hw => exact (Operator.idle_waiting hidle hw).elim
  · rintro later earlier ⟨s, m⟩ id key pod rfl hfound hclean
    obtain ⟨told, stage, event, rfl, hf⟩ := found?_eq_some hfound
    obtain ⟨mid, hbefore, hstep, hafter⟩ := h.split
    have hw := Step.turned_down (operator_execution hbefore) hstep.1 hf hclean
    have hdelete := deleted_or_deleting hafter hw
      fun moment hm => hstrand moment (List.mem_append_left _ hm)
    exact hdelete.resolve_left fun hw => Operator.idle_waiting hidle hw

/-- A run is removed and cleaned up after while its pod is being created, and is applied and deployed
again. -/
def overtaken : List (Site × Move) × Site :=
  play (Sample.opening "first" ++ (.reconcile 0 Sample.key :: Sample.exchanges 0 3) ++
    [.serve 0 .epoch, .outside (.removeRun Sample.key)] ++
    (.reconcile 0 Sample.key :: Sample.exchanges 1 1) ++ (.resume 0 :: Sample.exchanges 0 1) ++
    [.outside (.applyRun .epoch (Sample.run "second"))] ++
    (.reconcile 0 Sample.key :: Sample.exchanges 2 6))

theorem lt_overtaken : 16 < overtaken.1.length := by decide +kernel

/-- The first pod was deleted by the task that had created it, and the second one has its entry. -/
theorem no_orphans_overtaken :
    let first : ObjectKey := ⟨"ops", "cnf-job-run-1"⟩
    let second : ObjectKey := ⟨"ops", "cnf-job-run-2"⟩
    Execution Step {} overtaken.1 overtaken.2 ∧
      (∀ moment ∈ overtaken.1, strands 0 moment = false) ∧
      overtaken.2.operator.idle 0 = true ∧
      overtaken.2.store.pods.contains second = true ∧
      creator? second overtaken.1 = some (.reconciler 0 Sample.key) ∧
      (∃ e, overtaken.2.operator.tracked? 0 Sample.key = some e ∧ e.podName = some second.name) ∧
      ∃ later moment earlier, overtaken.1 = later ++ moment :: earlier ∧
        moment.2.found? 0 0 = some (Sample.key, first) ∧
        Operator.cleanedSince 0 Sample.key 0 (operatorHistory earlier) = true ∧
        ∃ moment ∈ later, discards 0 first moment = true := by
  have h : Execution Step {} overtaken.1 overtaken.2 := play_execution _
  have hstrand : ∀ moment ∈ overtaken.1, strands 0 moment = false := by
    have hall : overtaken.1.all (fun moment => !strands 0 moment) = true := by decide +kernel
    exact fun moment hm => by simpa using List.all_eq_true.mp hall moment hm
  have hidle : overtaken.2.operator.idle 0 = true := by decide +kernel
  have hhere : overtaken.2.store.pods.contains ⟨"ops", "cnf-job-run-2"⟩ = true := by
    decide +kernel
  have hc : creator? ⟨"ops", "cnf-job-run-2"⟩ overtaken.1 = some (.reconciler 0 Sample.key) := by
    decide +kernel
  have hsplit : overtaken.1 =
      overtaken.1.take 16 ++ overtaken.1.get ⟨16, lt_overtaken⟩ :: overtaken.1.drop 17 := by
    rw [List.get_eq_getElem, ← List.drop_eq_getElem_cons, List.take_append_drop]
  have hfound : (overtaken.1.get ⟨16, lt_overtaken⟩).2.found? 0 0 =
      some (Sample.key, ⟨"ops", "cnf-job-run-1"⟩) := by decide +kernel
  have hclean : Operator.cleanedSince 0 Sample.key 0 (operatorHistory (overtaken.1.drop 17)) =
      true := by decide +kernel
  obtain ⟨kept, deleted⟩ := no_orphans h hstrand hidle
  exact ⟨h, hstrand, hidle, hhere, hc, (kept _ _ hhere hc).2.1, _, _, _, hsplit, hfound, hclean,
    deleted _ _ _ _ _ _ hsplit hfound hclean⟩

end Site

end CertRuns
