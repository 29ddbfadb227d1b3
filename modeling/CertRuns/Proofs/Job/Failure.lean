import CertRuns.Proofs.Job.Build

/-!
# How a build fails

A step fails iff the pod lacks the container that it needs, and then it leaves the pod as it was.
No step changes which containers there are. So a build fails iff its template lacks a container
that some step needs, and it fails at the first such step.

* `Step.Needs`, `Supplies` : the containers that steps need;
* `lastGiven`, `Step.podName?` : the name of the pod in force after some steps;
* `Step.change_error`, `Step.change_names` : a step in place;
* `exists_build_iff`, `build_eq_error_iff` : when a build succeeds, and where it fails;
* `build_outcome` : both, for every template and every list of steps.
-/

namespace CertRuns.Job

variable {step : Step} {steps : List Step} {p q : Pod} {target : String} {e : MissingContainer}

/-! ## What steps need -/

/-- The container that a step needs. -/
inductive Step.Needs : Step → String → Prop where
  | runName (run : String) : Needs (.runName run) sidecarContainer
  | sidecarImage (image : String) : Needs (.sidecarImage image) sidecarContainer
  | labelsFilter (filter : String) : Needs (.labelsFilter filter) suiteContainer
  | logLevel (level : String) : Needs (.logLevel level) suiteContainer
  | timeout (limit : String) : Needs (.timeout limit) suiteContainer
  | runnerImage (image : String) : Needs (.runnerImage image) suiteContainer
  | dataCollection (enabled : Bool) : Needs (.dataCollection enabled) suiteContainer
  | preflightSecret (secret : String) : Needs (.preflightSecret (some secret)) suiteContainer

theorem Step.needs_iff : step.Needs target ↔ step.container? = some target := by
  constructor
  · intro h
    cases h <;> rfl
  · intro h
    cases step with
    | preflightSecret secret =>
      cases secret with
      | none => cases h
      | some secret =>
        cases h
        exact .preflightSecret secret
    | name | ns | configMap | owner => cases h
    | _ =>
      cases h
      constructor

/-- A pod has every container that one of the steps needs. -/
def Supplies (p : Pod) (steps : List Step) : Prop :=
  ∀ step ∈ steps, ∀ target, step.Needs target → target ∈ p.containerNames

theorem supplies_cons :
    Supplies p (step :: steps) ↔
      (∀ target, step.Needs target → target ∈ p.containerNames) ∧ Supplies p steps :=
  List.forall_mem_cons

theorem Supplies.congr (h : q.containerNames = p.containerNames) :
    Supplies q steps ↔ Supplies p steps := by
  unfold Supplies
  rw [h]

/-! ## One step -/

theorem mem_containerNames : target ∈ p.containerNames ↔
    p.spec.containers.any (·.name == target) = true := by
  simp [Pod.containerNames]

theorem Step.change_error (h : step.change.run p = .error e q) :
    q = p ∧ ∃ target, step.Needs target ∧ target ∉ p.containerNames ∧
      e = ⟨target, p.metadata.name, step.label⟩ := by
  rw [change_run] at h
  cases htarget : step.container? with
  | none =>
    rw [htarget] at h
    cases h
  | some target =>
    rw [htarget] at h
    dsimp only at h
    split at h
    · cases h
    · rename_i hany
      cases h
      exact ⟨rfl, target, Step.needs_iff.2 htarget, fun hmem => hany (mem_containerNames.1 hmem),
        rfl⟩

theorem Step.apply_eq_error_iff :
    step.apply p = .error e ↔ ∃ target, step.Needs target ∧ target ∉ p.containerNames ∧
      e = ⟨target, p.metadata.name, step.label⟩ := by
  constructor
  · intro h
    unfold apply at h
    split at h
    · cases h
    · rename_i herror
      cases h
      exact (change_error herror).2
  · rintro ⟨target, hneeds, hmissing, rfl⟩
    rw [apply_eq, Step.needs_iff.1 hneeds]
    exact if_neg fun hany => hmissing (mem_containerNames.2 hany)

theorem Step.exists_apply_iff :
    (∃ q, step.apply p = .ok q) ↔ ∀ target, step.Needs target → target ∈ p.containerNames := by
  constructor
  · rintro ⟨q, hq⟩ target hneeds
    refine Decidable.byContradiction fun hmissing => ?_
    rw [apply_eq_error_iff.2 ⟨target, hneeds, hmissing, rfl⟩] at hq
    cases hq
  · intro h
    exact apply_eq_ok fun target htarget => h target (Step.needs_iff.2 htarget)

theorem Step.change_names (step : Step) (p : Pod) :
    match step.change.run p with
    | .ok _ q | .error _ q => q.containerNames = p.containerNames := by
  cases h : step.change.run p with
  | ok u q =>
    have happly : step.apply p = .ok q := by rw [apply, h]
    exact (spec_of_apply happly).2.1
  | error e q => rw [(change_error h).1]

/-! ## The name in force -/

/-- The last value that steps give, else the one before them. -/
def lastGiven {α : Type} (given? : Step → Option α) (steps : List Step) (before : α) : α :=
  (steps.filterMap given?).getLastD before

/-- The name that a step gives the pod. -/
def Step.podName? : Step → Option String
  | .name podName => some podName
  | _ => none

theorem lastGiven_append {α : Type} (given? : Step → Option α) (first second : List Step)
    (before : α) :
    lastGiven given? (first ++ second) before =
      lastGiven given? second (lastGiven given? first before) := by
  simp only [lastGiven, List.filterMap_append, List.getLastD_eq_getLast?, List.getLast?_append]
  cases (second.filterMap given?).getLast? <;> rfl

theorem Step.name_of_apply (h : step.apply p = .ok q) :
    q.metadata.name = lastGiven Step.podName? [step] p.metadata.name := by
  rw [apply_metadata h]
  cases step with
  | preflightSecret secret => cases secret <;> rfl
  | _ => rfl

theorem build_name (h : build p steps = .ok q) :
    q.metadata.name = lastGiven Step.podName? steps p.metadata.name := by
  induction steps generalizing p with
  | nil =>
    cases h
    rfl
  | cons step steps ih =>
    obtain ⟨r, hr, hrest⟩ := build_cons_eq_ok h
    rw [ih hrest, Step.name_of_apply hr, ← lastGiven_append, List.singleton_append]

/-! ## All steps -/

theorem exists_build_iff : (∃ q, build p steps = .ok q) ↔ Supplies p steps := by
  constructor
  · rintro ⟨q, hq⟩
    induction steps generalizing p with
    | nil => exact fun step hstep => absurd hstep List.not_mem_nil
    | cons step steps ih =>
      obtain ⟨r, hr, hrest⟩ := build_cons_eq_ok hq
      exact supplies_cons.2 ⟨Step.exists_apply_iff.1 ⟨r, hr⟩,
        (Supplies.congr (Step.spec_of_apply hr).2.1).1 (ih hrest)⟩
  · intro h
    exact build_eq_ok fun step hstep target htarget =>
      h step hstep target (Step.needs_iff.2 htarget)

/-- A build fails at the first step that fails, for what that step finds. -/
theorem build_eq_error :
    build p steps = .error e ↔ ∃ before step after r, steps = before ++ step :: after ∧
      build p before = .ok r ∧ step.apply r = .error e := by
  induction steps generalizing p with
  | nil =>
    constructor
    · intro h
      cases h
    · rintro ⟨before, step, after, r, hsplit, -⟩
      cases before <;> cases hsplit
  | cons first steps ih =>
    constructor
    · intro h
      rw [build] at h
      cases hfirst : first.apply p with
      | error e' =>
        rw [hfirst] at h
        cases h
        exact ⟨[], first, steps, p, rfl, rfl, hfirst⟩
      | ok r =>
        rw [hfirst] at h
        obtain ⟨before, step, after, r', rfl, hbefore, hstep⟩ := ih.1 h
        refine ⟨first :: before, step, after, r', rfl, ?_, hstep⟩
        rw [build, hfirst]
        exact hbefore
    · rintro ⟨before, step, after, r, hsplit, hbefore, hstep⟩
      cases before with
      | nil =>
        cases hsplit
        cases hbefore
        rw [build, hstep]
      | cons _ before =>
        cases hsplit
        obtain ⟨r', hr', hrest⟩ := build_cons_eq_ok hbefore
        rw [build, hr']
        exact ih.2 ⟨before, step, after, r, rfl, hrest, hstep⟩

theorem build_eq_error_iff :
    build p steps = .error e ↔ ∃ before step after target, steps = before ++ step :: after ∧
      Supplies p before ∧ step.Needs target ∧ target ∉ p.containerNames ∧
        e = ⟨target, lastGiven Step.podName? before p.metadata.name, step.label⟩ := by
  rw [build_eq_error]
  constructor
  · rintro ⟨before, step, after, r, hsplit, hbefore, hstep⟩
    obtain ⟨target, hneeds, hmissing, he⟩ := Step.apply_eq_error_iff.1 hstep
    rw [build_containerNames hbefore] at hmissing
    rw [build_name hbefore] at he
    exact ⟨before, step, after, target, hsplit, exists_build_iff.1 ⟨r, hbefore⟩, hneeds, hmissing,
      he⟩
  · rintro ⟨before, step, after, target, hsplit, hsupplies, hneeds, hmissing, he⟩
    obtain ⟨r, hr⟩ := exists_build_iff.2 hsupplies
    refine ⟨before, step, after, r, hsplit, hr, Step.apply_eq_error_iff.2 ?_⟩
    refine ⟨target, hneeds, ?_, ?_⟩
    · rwa [build_containerNames hr]
    · rwa [build_name hr]

-- the name that the error gives is the one in force at the step
example : build { metadata := { name := "first" } } [.name "second", .ns "ops", .runName "run-1"] =
    .error ⟨"cnf-certsuite-sidecar", "second", "run name"⟩ := by rfl

/-- What comes of a build, for every template and every list of steps. A step in place keeps the
containers' names and their order, and the whole pod if it fails. -/
theorem build_outcome (template : Pod) (steps : List Step) :
    (∀ (step : Step) (p : Pod),
      match step.change.run p with
      | .ok _ q => q.containerNames = p.containerNames
      | .error _ q => q = p) ∧
    ((∃ p, build template steps = .ok p) ↔ Supplies template steps) ∧
    ∀ e, build template steps = .error e ↔
      ∃ before step after target, steps = before ++ step :: after ∧
        Supplies template before ∧ step.Needs target ∧ target ∉ template.containerNames ∧
          e = ⟨target, lastGiven Step.podName? before template.metadata.name, step.label⟩ := by
  refine ⟨fun step p => ?_, exists_build_iff, fun e => build_eq_error_iff⟩
  cases h : step.change.run p with
  | ok u q =>
    have hnames := step.change_names p
    rwa [h] at hnames
  | error e q => exact (Step.change_error h).1

end CertRuns.Job
