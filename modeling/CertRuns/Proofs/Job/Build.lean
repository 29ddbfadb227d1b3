import CertRuns.Proofs.Job.Names

/-!
# What a build makes of its template

A build succeeds iff the template has the containers that the steps need. It keeps the names of the
containers; each container has gone through the steps that change it, in their order.

* `Pod.containerNames`, `container?_eq_of_mem` : a pod whose containers have different names;
* `Step.volumes`, `Step.adjustAt` : what a step adds to the volumes, and what it does to the first
  container of a name;
* `build_eq_ok`, `build_containerNames`, `build_container?`, `build_volumes` : the built pod.
-/

namespace CertRuns

/-- The names of the containers, in their order. -/
def Pod.containerNames (p : Pod) : List String := p.spec.containers.map (·.name)

theorem Pod.container?_eq_of_mem {p : Pod} {c : Container} (h : p.containerNames.Nodup)
    (hc : c ∈ p.spec.containers) : p.container? c.name = some c := by
  unfold containerNames at h
  unfold container?
  revert h hc
  generalize p.spec.containers = containers
  intro h hc
  induction containers with
  | nil => cases hc
  | cons d cs ih =>
    rw [List.map_cons, List.nodup_cons] at h
    rcases List.mem_cons.1 hc with rfl | hc
    · exact List.find?_cons_of_pos (by simp)
    · have hne : d.name ≠ c.name := by
        intro heq
        exact h.1 (heq ▸ List.mem_map_of_mem hc)
      rw [List.find?_cons_of_neg (by simpa using hne)]
      exact ih h.2 hc

namespace Job

variable {step : Step} {steps : List Step} {p q : Pod} {name target : String}

theorem sidecar_ne_suite : sidecarContainer ≠ suiteContainer := by decide

/-! ## One step -/

def Step.volumes : Step → List Volume
  | .configMap source => [{ name := configVolume, configMap := some { name := source } }]
  | .preflightSecret (some secret) =>
    [{ name := preflightVolume, secret := some { secretName := secret } }]
  | _ => []

def Step.adjustAt (name : String) (step : Step) (c : Container) : Container :=
  if step.container? = some name then step.adjust c else c

@[simp] theorem Step.name_adjust (step : Step) (c : Container) : (step.adjust c).name = c.name := by
  cases step with
  | preflightSecret secret => cases secret <;> rfl
  | _ => rfl

theorem Step.adjustAt_of_none (h : step.container? = none) (name : String) :
    step.adjustAt name = id := by
  funext c
  simp [adjustAt, h]

theorem Step.adjustAt_of_some (h : step.container? = some target) (name : String) :
    step.adjustAt name = fun c => if target = name then step.adjust c else c := by
  funext c
  simp [adjustAt, h]

theorem Step.eq_of_container? (h : step.container? = some target) :
    target = sidecarContainer ∨ target = suiteContainer := by
  cases step with
  | runName | sidecarImage => exact .inl (Option.some.inj h).symm
  | preflightSecret secret =>
    cases secret with
    | none => cases h
    | some _ => exact .inr (Option.some.inj h).symm
  | name | ns | configMap | owner => cases h
  | _ => exact .inr (Option.some.inj h).symm

@[simp] theorem Step.containers_frame (step : Step) (p : Pod) :
    (step.frame p).spec.containers = p.spec.containers := by
  cases step with
  | preflightSecret secret => cases secret <;> rfl
  | _ => rfl

theorem Step.volumes_frame (step : Step) (p : Pod) :
    (step.frame p).spec.volumes = p.spec.volumes ++ step.volumes := by
  cases step with
  | configMap => rfl
  | preflightSecret secret =>
    cases secret with
    | none => exact (List.append_nil _).symm
    | some _ => rfl
  | _ => exact (List.append_nil _).symm

theorem map_name_adjustFirst {f : Container → Container} (hf : ∀ c, (f c).name = c.name)
    (cs : List Container) : (adjustFirst target f cs).map (·.name) = cs.map (·.name) := by
  induction cs with
  | nil => rfl
  | cons c cs ih =>
    rw [adjustFirst]
    split
    · simp [hf]
    · simp [ih]

/-- The first container of a name after the first one of a name was changed. -/
theorem find?_adjustFirst {f : Container → Container} (hf : ∀ c, (f c).name = c.name)
    (cs : List Container) :
    (adjustFirst target f cs).find? (·.name == name) =
      (cs.find? (·.name == name)).map fun c => if target = name then f c else c := by
  induction cs with
  | nil => rfl
  | cons c cs ih =>
    rw [adjustFirst]
    by_cases hname : c.name = name
    · rw [List.find?_cons_of_pos (by simpa using hname), Option.map_some]
      by_cases htarget : target = name
      · rw [if_pos (hname.trans htarget.symm), if_pos htarget,
          List.find?_cons_of_pos (by simpa [hf] using hname)]
      · rw [if_neg (fun heq => htarget (heq.symm.trans hname)), if_neg htarget,
          List.find?_cons_of_pos (by simpa using hname)]
    · rw [List.find?_cons_of_neg (by simpa using hname)]
      split
      · rename_i htarget
        have hne : target ≠ name := fun heq => hname (htarget.trans heq)
        rw [List.find?_cons_of_neg (by simpa [hf] using hname)]
        simp [hne]
      · rw [List.find?_cons_of_neg (by simpa using hname), ih]

/-- A step that finds the container that it needs succeeds. -/
theorem Step.apply_eq_ok
    (h : ∀ target, step.container? = some target → target ∈ p.containerNames) :
    ∃ q, step.apply p = .ok q := by
  rw [apply_eq]
  cases htarget : step.container? with
  | none => exact ⟨_, rfl⟩
  | some target =>
    obtain ⟨c, hc, hname⟩ := List.mem_map.1 (h target htarget)
    have hany : p.spec.containers.any (·.name == target) = true :=
      List.any_eq_true.2 ⟨c, hc, by simpa using hname⟩
    simp only [hany, if_true]
    exact ⟨_, rfl⟩

/-- What a step that succeeds does to the containers and the volumes. -/
theorem Step.spec_of_apply (h : step.apply p = .ok q) :
    (∀ name, q.container? name = (p.container? name).map (step.adjustAt name)) ∧
      q.containerNames = p.containerNames ∧ q.spec.volumes = p.spec.volumes ++ step.volumes := by
  rw [apply_eq] at h
  split at h
  · rename_i hnone
    cases h
    refine ⟨fun name => ?_, ?_, step.volumes_frame p⟩
    · simp [Pod.container?, adjustAt_of_none hnone]
    · simp [Pod.containerNames]
  · rename_i target htarget
    split at h
    · cases h
      refine ⟨fun name => ?_, ?_, step.volumes_frame _⟩
      · simp [Pod.container?, adjustAt_of_some htarget, find?_adjustFirst step.name_adjust]
      · simp [Pod.containerNames, map_name_adjustFirst step.name_adjust]
    · cases h

/-! ## All steps -/

theorem build_eq_ok (h : ∀ step ∈ steps, ∀ target, step.container? = some target →
    target ∈ p.containerNames) : ∃ q, build p steps = .ok q := by
  induction steps generalizing p with
  | nil => exact ⟨p, rfl⟩
  | cons step steps ih =>
    obtain ⟨r, hr⟩ := step.apply_eq_ok (h step (List.mem_cons_self ..))
    rw [build, hr]
    refine ih fun step' hstep' target htarget => ?_
    rw [(Step.spec_of_apply hr).2.1]
    exact h step' (List.mem_cons_of_mem _ hstep') target htarget

/-- The first step of a build that succeeds, and the rest. -/
theorem build_cons_eq_ok (h : build p (step :: steps) = .ok q) :
    ∃ r, step.apply p = .ok r ∧ build r steps = .ok q := by
  rw [build] at h
  cases hr : step.apply p with
  | error e =>
    rw [hr] at h
    cases h
  | ok r =>
    rw [hr] at h
    exact ⟨r, rfl, h⟩

theorem build_containerNames (h : build p steps = .ok q) : q.containerNames = p.containerNames := by
  induction steps generalizing p with
  | nil =>
    cases h
    rfl
  | cons step steps ih =>
    obtain ⟨r, hr, hrest⟩ := build_cons_eq_ok h
    exact (ih hrest).trans (Step.spec_of_apply hr).2.1

theorem build_container? (h : build p steps = .ok q) (name : String) :
    q.container? name =
      (p.container? name).map fun c => steps.foldl (fun c step => step.adjustAt name c) c := by
  induction steps generalizing p with
  | nil =>
    cases h
    simp
  | cons step steps ih =>
    obtain ⟨r, hr, hrest⟩ := build_cons_eq_ok h
    rw [ih hrest, (Step.spec_of_apply hr).1, Option.map_map]
    rfl

theorem build_volumes (h : build p steps = .ok q) :
    q.spec.volumes = p.spec.volumes ++ steps.flatMap Step.volumes := by
  induction steps generalizing p with
  | nil =>
    cases h
    simp
  | cons step steps ih =>
    obtain ⟨r, hr, hrest⟩ := build_cons_eq_ok h
    rw [ih hrest, (Step.spec_of_apply hr).2.2, List.append_assoc, List.flatMap_cons]

end Job

end CertRuns
