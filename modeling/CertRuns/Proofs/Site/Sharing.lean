import CertRuns.Proofs.Operator.PodNumbers
import CertRuns.Proofs.Site.Placement
import CertRuns.Proofs.Site.Provenance
import CertRuns.Proofs.Site.Script

/-!
# When two runs share a pod

A name is chosen above those of the pods that are there, and an adoption takes the name in the status
on trust. So the pod of a run may be adopted under a name that has been given to another run since,
if the first pod of this name is gone.

* `Remade` : a pod was created for one run, deleted, and created again for another one;
* `remade` : so it was if a pod was created for both; `sole_run` : one controller does not do so;
* `shared_pod` : two tracked runs share a pod only if it was remade, by another controller or after
  the counter of the controller has wrapped around;
* `not_disjoint` : a controller that follows another one may have two runs share a pod.
-/

namespace CertRuns.Site

open Rehearsal (Work)

variable {t t' : Site} {m : Move} {history : List (Site × Move)} {pod : ObjectKey}
  {k k' : ObjectKey} {o o' : Nat}

/-- A pod is created by one task, deleted, and created again by another one. -/
def Remade (history : List (Site × Move)) (pod : ObjectKey) (first second : Role) : Prop :=
  ∃ later between earlier x y, history = later ++ y :: (between ++ x :: earlier) ∧
    x.2.creator? pod = some first ∧ (∃ moment ∈ between, moment.2.deletes pod = true) ∧
    y.2.creator? pod = some second

theorem deleted_between {t₀ : Site} {between : List (Site × Move)} (h : Execution Step t₀ between t)
    (hfirst : t₀.store.pods.contains pod = true) (hlast : t.store.pods.contains pod = false) :
    ∃ moment ∈ between, moment.2.deletes pod = true := by
  induction h with
  | start =>
    rw [hfirst] at hlast
    cases hlast
  | @next history s s' m before last ih =>
    cases hs : s.store.pods.contains pod with
    | false =>
      obtain ⟨moment, hm, hd⟩ := ih hs
      exact ⟨moment, List.mem_cons_of_mem _ hm, hd⟩
    | true =>
      refine ⟨_, List.mem_cons_self, ?_⟩
      cases hd : m.deletes pod with
      | true => rfl
      | false =>
        rw [(last.contains_pod pod).mpr (.inr ⟨hs, hd⟩)] at hlast
        cases hlast

theorem Step.made? (h : Execution Step {} history t) (hs : t.Step m t')
    (hc : m.creator? pod = some (.reconciler o k)) : Operator.made? o m = some pod.name := by
  obtain ⟨_, id, told, run, claim, p, stored, rfl⟩ := hs.creation_eq h hc
  exact if_pos rfl

/-- Of two creations of a pod the later one finds that it was deleted since the earlier one, and is
another controller's unless the counter has wrapped around. -/
theorem remade_of_split {later between earlier : List (Site × Move)} {x y : Site × Move}
    (h : Execution Step {} (later ++ y :: (between ++ x :: earlier)) t)
    (hx : x.2.creator? pod = some (.reconciler o k))
    (hy : y.2.creator? pod = some (.reconciler o' k')) :
    Remade (later ++ y :: (between ++ x :: earlier)) pod (.reconciler o k) (.reconciler o' k') ∧
      (o = o' → ∃ moment ∈ operatorHistory (later ++ y :: (between ++ x :: earlier)),
        Operator.wraps o moment = true) := by
  obtain ⟨_, hbefore, hlast, _⟩ := h.split
  obtain ⟨_, hearlier, hfirst, hbetween⟩ := hbefore.split
  have hcreated := (hfirst.contains_pod pod).mpr (.inl (by rw [hx]; rfl))
  refine ⟨⟨later, between, earlier, x, y, rfl, hx, ?_, hy⟩, fun ho => ?_⟩
  · exact deleted_between hbetween hcreated (hlast.creation hy)
  · subst ho
    refine Classical.byContradiction fun hwrap => ?_
    have hno : ∀ moment ∈ operatorHistory (later ++ y :: (between ++ x :: earlier)),
        Operator.wraps o moment = false := fun moment hm =>
      Bool.eq_false_iff.mpr fun hw => hwrap ⟨moment, hm, hw⟩
    have honce := Operator.made_once (operator_execution h) hno
    unfold operatorHistory at honce
    rw [List.map_append, List.map_cons, List.pairwise_append, List.pairwise_cons] at honce
    have hxmem : (x.1.operator, x.2) ∈
        (between ++ x :: earlier).map fun moment => (moment.1.operator, moment.2) :=
      List.mem_map_of_mem (List.mem_append_right _ List.mem_cons_self)
    exact honce.2.1.1 _ hxmem pod.name (hlast.made? hbefore hy) (hfirst.made? hearlier hx)

theorem remade (h : Execution Step {} history t) {x y : Site × Move} (hxm : x ∈ history)
    (hym : y ∈ history) (hx : x.2.creator? pod = some (.reconciler o k))
    (hy : y.2.creator? pod = some (.reconciler o' k')) (hk : k ≠ k') :
    (Remade history pod (.reconciler o k) (.reconciler o' k') ∨
        Remade history pod (.reconciler o' k') (.reconciler o k)) ∧
      (o = o' → ∃ moment ∈ operatorHistory history, Operator.wraps o moment = true) := by
  have hne : x ≠ y := by
    rintro rfl
    rw [hx] at hy
    cases hy
    exact hk rfl
  -- which of the two creations came first is open, so the pod was remade for the one or the other
  obtain ⟨later, earlier, rfl⟩ := List.append_of_mem hxm
  rcases List.mem_append.mp hym with hlater | hearlier
  · obtain ⟨later, between, rfl⟩ := List.append_of_mem hlater
    rw [List.append_assoc, List.cons_append] at h ⊢
    obtain ⟨hr, hw⟩ := remade_of_split h hx hy
    exact ⟨.inl hr, hw⟩
  · have hearlier := (List.mem_cons.mp hearlier).resolve_left fun h => hne h.symm
    obtain ⟨between, earlier, rfl⟩ := List.append_of_mem hearlier
    obtain ⟨hr, hw⟩ := remade_of_split h hy hx
    refine ⟨.inr hr, fun ho => ?_⟩
    subst ho
    exact hw rfl

/-- Two tracked runs share a pod only if it was created for both of them, after it was deleted in
between; and then by two controllers, or by one whose counter has wrapped around. -/
theorem shared_pod (h : Execution Step {} history t)
    (hm : ∀ moment ∈ history, moment.2.meddles = false) {o₁ o₂ : Nat} {k₁ k₂ : ObjectKey}
    {e₁ e₂ : TrackedRun} {podName : String} (he₁ : t.operator.tracked? o₁ k₁ = some e₁)
    (he₂ : t.operator.tracked? o₂ k₂ = some e₂) (hp₁ : e₁.podName = some podName)
    (hp₂ : e₂.podName = some podName) (hns : k₁.ns = k₂.ns) (hk : k₁ ≠ k₂) :
    ∃ o o', (Remade history ⟨k₁.ns, podName⟩ (.reconciler o k₁) (.reconciler o' k₂) ∨
        Remade history ⟨k₁.ns, podName⟩ (.reconciler o' k₂) (.reconciler o k₁)) ∧
      (o = o' → ∃ moment ∈ operatorHistory history, Operator.wraps o moment = true) := by
  have hp := provenance h hm
  obtain ⟨x, hxm, o, hx⟩ := hp.entries he₁ hp₁
  obtain ⟨y, hym, o', hy⟩ := hp.entries he₂ hp₂
  rw [← hns] at hy
  exact ⟨o, o', remade h hxm hym hx hy hk⟩

/-- A controller starts its counter above the pods that are there. -/
def seeds (owner : Nat) : Site × Move → Bool
  | (_, .resume _ (.seeding o _) (.ok _)) => o == owner
  | _ => false

/-- Controllers follow one another: one is added when the earlier ones have come to rest, and only the
last one is told to reconcile runs, after it has started its counter. -/
def inTurn : List (Site × Move) → Bool
  | [] => true
  | (t, m) :: earlier =>
    (match m with
      | .install _ _ =>
        (List.range t.operator.controllers.length).all fun owner => t.operator.retired owner
      | .start (.reconcile owner _ _) =>
        owner + 1 == t.operator.controllers.length && earlier.any (seeds owner)
      | _ => true) && inTurn earlier

/-- The run has a pod, the controller is shut down, and the pod is deleted. The next controller gives
its name to the pod of another run, and then adopts the pod that the status of the first run names. -/
def misled : List (Site × Move) × Site :=
  let pod : ObjectKey := ⟨"ops", "cnf-job-run-1"⟩
  play (([.install Sample.settings {}, .seed 0 "ops"] ++ Sample.exchanges 0 1) ++
    [.outside (.applyRun .epoch (Sample.run "first")), .reconcile 0 Sample.key] ++
    Sample.exchanges 1 6 ++ [.shutDown 0, .cancel 2, .resume 2] ++
    (.call (.deletePod pod) :: Sample.exchanges 3 1) ++
    (.install Sample.settings {} :: .seed 1 "ops" :: Sample.exchanges 4 1) ++
    [.outside (.applyRun .epoch Sample.otherRun), .reconcile 1 Sample.otherKey] ++
    Sample.exchanges 5 6 ++ (.reconcile 1 Sample.key :: Sample.exchanges 7 2))

theorem tracked?_misled :
    (∃ e, misled.2.operator.tracked? 1 Sample.key = some e ∧ e.podName = some "cnf-job-run-1") ∧
      ∃ e, misled.2.operator.tracked? 1 Sample.otherKey = some e ∧
        e.podName = some "cnf-job-run-1" := by
  have h : (misled.2.operator.tracked? 1 Sample.key).bind (·.podName) = some "cnf-job-run-1" ∧
      (misled.2.operator.tracked? 1 Sample.otherKey).bind (·.podName) = some "cnf-job-run-1" := by
    decide +kernel
  exact ⟨Option.bind_eq_some_iff.mp h.1, Option.bind_eq_some_iff.mp h.2⟩

theorem meddles_misled : ∀ moment ∈ misled.1, moment.2.meddles = false := by
  have h : misled.1.all (fun moment => !moment.2.meddles) = true := by decide +kernel
  exact fun moment hm => by simpa using List.all_eq_true.mp h moment hm

/-- Two runs share a pod that was created for the one, deleted, and created for the other. -/
theorem shared_pod_misled :
    Execution Step {} misled.1 misled.2 ∧
      (∀ moment ∈ misled.1, moment.2.meddles = false) ∧
      ∃ e₁ e₂, misled.2.operator.tracked? 1 Sample.key = some e₁ ∧
        misled.2.operator.tracked? 1 Sample.otherKey = some e₂ ∧
        e₁.podName = some "cnf-job-run-1" ∧ e₂.podName = some "cnf-job-run-1" ∧
        Sample.key.ns = Sample.otherKey.ns ∧ Sample.key ≠ Sample.otherKey ∧
        ∃ o o', (Remade misled.1 ⟨Sample.key.ns, "cnf-job-run-1"⟩ (.reconciler o Sample.key)
              (.reconciler o' Sample.otherKey) ∨
            Remade misled.1 ⟨Sample.key.ns, "cnf-job-run-1"⟩ (.reconciler o' Sample.otherKey)
              (.reconciler o Sample.key)) ∧
          (o = o' → ∃ moment ∈ operatorHistory misled.1, Operator.wraps o moment = true) := by
  have h : Execution Step {} misled.1 misled.2 := play_execution _
  obtain ⟨⟨e₁, he₁, hp₁⟩, e₂, he₂, hp₂⟩ := tracked?_misled
  have hns : Sample.key.ns = Sample.otherKey.ns := rfl
  have hk : Sample.key ≠ Sample.otherKey := by decide
  exact ⟨h, meddles_misled, e₁, e₂, he₁, he₂, hp₁, hp₂, hns, hk,
    shared_pod h meddles_misled he₁ he₂ hp₁ hp₂ hns hk⟩

/-- It is not so that two tracked runs never share a pod, even if nobody else writes statuses, and
controllers follow one another and start their counters first. -/
theorem not_disjoint :
    ¬ ∀ (history : List (Site × Move)) (t : Site) (o₁ o₂ : Nat) (k₁ k₂ : ObjectKey)
      (e₁ e₂ : TrackedRun) (podName : String), Execution Step {} history t →
      (∀ moment ∈ history, moment.2.meddles = false) → inTurn history = true →
      t.operator.tracked? o₁ k₁ = some e₁ → t.operator.tracked? o₂ k₂ = some e₂ →
      e₁.podName = some podName → e₂.podName = some podName → k₁.ns = k₂.ns → k₁ = k₂ := by
  intro disjoint
  obtain ⟨⟨e₁, he₁, hp₁⟩, e₂, he₂, hp₂⟩ := tracked?_misled
  have hsame := disjoint misled.1 misled.2 1 1 _ _ e₁ e₂ _ (play_execution _) meddles_misled
    (by decide +kernel) he₁ he₂ hp₁ hp₂ rfl
  exact absurd hsame (by decide)

end CertRuns.Site
