import CertRuns.Proofs.Job.Failure

/-!
# The built pod in closed form

A built pod is its template with the last name, namespace, owners and images that the steps give,
and with what the steps add to arguments, variables, mounts and volumes behind what is there. Of
the containers only the first of the two names changes. Two steps that write different parts may
change places.

* `lastGiven`, `Step.podName?`, ... : a part that a later step overwrites;
* `Step.arguments`, `Step.variables`, `Step.mounts` : what a step adds to a container;
* `sidecarAfter`, `suiteAfter`, `containersAfter`, `assembled` : the parts together; `build_assembled`;
* `Part`, `Step.Writes` : the parts that a step writes; `build_closed_form`.
-/

namespace CertRuns.Job

variable {step : Step} {steps : List Step} {p q : Pod}

/-! ## What steps give -/

def Step.podNs? : Step → Option String
  | .ns podNs => some podNs
  | _ => none

def Step.owners? : Step → Option (List OwnerReference)
  | .owner reference => some [reference]
  | _ => none

def Step.sidecarImage? : Step → Option String
  | .sidecarImage image => some image
  | _ => none

def Step.suiteImage? : Step → Option String
  | .runnerImage image => some image
  | _ => none

/-- The arguments that a step adds to the suite: a flag and its value, which stays one argument. -/
def Step.arguments : Step → List String
  | .labelsFilter filter => ["-l", filter]
  | .logLevel level => ["--log-level", level]
  | .timeout limit => ["--timeout", limit]
  | .dataCollection enabled => ["--enable-data-collection", if enabled then "true" else "false"]
  | _ => []

def Step.variables : Step → List EnvVar
  | .runName run => [{ name := "RUN_CR_NAME", value := some run }]
  | _ => []

def Step.mounts : Step → List VolumeMount
  | .preflightSecret (some _) => [⟨preflightVolume, preflightFolder, true⟩]
  | _ => []

/-! ## The pod after steps -/

def sidecarAfter (steps : List Step) (c : Container) : Container :=
  { c with
    image := lastGiven Step.sidecarImage? steps c.image
    env := c.env ++ steps.flatMap Step.variables }

def suiteAfter (steps : List Step) (c : Container) : Container :=
  { c with
    image := lastGiven Step.suiteImage? steps c.image
    args := c.args ++ steps.flatMap Step.arguments
    volumeMounts := c.volumeMounts ++ steps.flatMap Step.mounts }

/-- The containers after some steps. A later container with the name of an earlier one stays as it
is. -/
def containersAfter (steps : List Step) (cs : List Container) : List Container :=
  cs.mapIdx fun i c =>
    if (cs.map (·.name)).idxOf? sidecarContainer = some i then sidecarAfter steps c
    else if (cs.map (·.name)).idxOf? suiteContainer = some i then suiteAfter steps c
    else c

/-- The pod that steps make of a template that has the containers that they need. -/
def assembled (template : Pod) (steps : List Step) : Pod :=
  { template with
    metadata := { template.metadata with
      name := lastGiven Step.podName? steps template.metadata.name
      ns := lastGiven Step.podNs? steps template.metadata.ns
      owners := lastGiven Step.owners? steps template.metadata.owners }
    spec := { template.spec with
      containers := containersAfter steps template.spec.containers
      volumes := template.spec.volumes ++ steps.flatMap Step.volumes } }

theorem sidecarAfter_append (first second : List Step) (c : Container) :
    sidecarAfter (first ++ second) c = sidecarAfter second (sidecarAfter first c) := by
  simp [sidecarAfter, lastGiven_append]

theorem suiteAfter_append (first second : List Step) (c : Container) :
    suiteAfter (first ++ second) c = suiteAfter second (suiteAfter first c) := by
  simp [suiteAfter, lastGiven_append]

theorem map_name_containersAfter (steps : List Step) (cs : List Container) :
    (containersAfter steps cs).map (·.name) = cs.map (·.name) := by
  unfold containersAfter
  apply List.ext_getElem?
  intro i
  rw [List.getElem?_map, List.getElem?_map, List.getElem?_mapIdx]
  cases cs[i]? with
  | none => rfl
  | some c =>
    simp only [Option.map_some, Option.some.injEq]
    split
    · rfl
    · split <;> rfl

theorem containersAfter_append (first second : List Step) (cs : List Container) :
    containersAfter (first ++ second) cs = containersAfter second (containersAfter first cs) := by
  have hnames := map_name_containersAfter first cs
  generalize hafter : containersAfter first cs = after at hnames ⊢
  unfold containersAfter
  rw [hnames, ← hafter, containersAfter, List.mapIdx_mapIdx]
  congr 1
  funext i c
  by_cases hsidecar : (cs.map (·.name)).idxOf? sidecarContainer = some i
  · simp [hsidecar, sidecarAfter_append]
  · by_cases hsuite : (cs.map (·.name)).idxOf? suiteContainer = some i
    · simp [hsidecar, hsuite, suiteAfter_append]
    · simp [hsidecar, hsuite]

theorem assembled_append (p : Pod) (first second : List Step) :
    assembled p (first ++ second) = assembled (assembled p first) second := by
  simp [assembled, lastGiven_append, containersAfter_append]

/-! ## One step -/

theorem mapIdx_keep (cs : List Container) : (cs.mapIdx fun _ c => c) = cs := by
  apply List.ext_getElem?
  intro i
  rw [List.getElem?_mapIdx]
  cases cs[i]? <;> rfl

theorem adjustFirst_eq_mapIdx (target : String) (f : Container → Container) (cs : List Container) :
    adjustFirst target f cs =
      cs.mapIdx fun i c => if (cs.map (·.name)).idxOf? target = some i then f c else c := by
  induction cs with
  | nil => rfl
  | cons c cs ih =>
    rw [adjustFirst, List.mapIdx_cons, List.map_cons, List.idxOf?_cons]
    by_cases hname : c.name = target
    · simp [hname, mapIdx_keep]
    · simp [hname, ih]

theorem sidecarAfter_singleton (step : Step) :
    sidecarAfter [step] = step.adjustAt sidecarContainer := by
  funext c
  cases step with
  | preflightSecret secret =>
    cases secret <;> simp [sidecarAfter, lastGiven, Step.sidecarImage?, Step.variables,
      Step.adjustAt, Step.container?, sidecar_ne_suite.symm]
  | _ =>
    simp [sidecarAfter, lastGiven, Step.sidecarImage?, Step.variables, Step.adjustAt,
      Step.container?, Step.adjust, EnvVar.fixed, runNameVariable, sidecar_ne_suite.symm]

theorem suiteAfter_singleton (step : Step) :
    suiteAfter [step] = step.adjustAt suiteContainer := by
  funext c
  cases step with
  | preflightSecret secret =>
    cases secret <;> simp [suiteAfter, lastGiven, Step.suiteImage?, Step.arguments, Step.mounts,
      Step.adjustAt, Step.container?, Step.adjust]
  | _ =>
    simp [suiteAfter, lastGiven, Step.suiteImage?, Step.arguments, Step.mounts, Step.adjustAt,
      Step.container?, Step.adjust, sidecar_ne_suite]

/-- A step changes the first container of the name that it needs, and no other one. -/
theorem containersAfter_singleton (step : Step) (cs : List Container) :
    containersAfter [step] cs =
      match step.container? with
      | none => cs
      | some target => adjustFirst target step.adjust cs := by
  unfold containersAfter
  rw [sidecarAfter_singleton, suiteAfter_singleton]
  cases htarget : step.container? with
  | none => simp [Step.adjustAt_of_none htarget, mapIdx_keep]
  | some target =>
    dsimp only
    rw [adjustFirst_eq_mapIdx]
    congr 1
    funext i c
    rcases Step.eq_of_container? htarget with rfl | rfl
    · simp [Step.adjustAt_of_some htarget, sidecar_ne_suite]
    · by_cases hsidecar : (cs.map (·.name)).idxOf? sidecarContainer = some i
      · have hne : (cs.map (·.name)).idxOf? suiteContainer ≠ some i := by
          intro hsuite
          obtain ⟨hi, hname, -⟩ := List.idxOf?_eq_some_iff.1 hsidecar
          obtain ⟨_, hname', -⟩ := List.idxOf?_eq_some_iff.1 hsuite
          exact sidecar_ne_suite (hname.symm.trans hname')
        simp [Step.adjustAt_of_some htarget, sidecar_ne_suite.symm, hsidecar, hne]
      · simp [Step.adjustAt_of_some htarget, hsidecar]

theorem assembled_singleton (step : Step) (p : Pod) :
    assembled p [step] = step.frame { p with spec := { p.spec with
      containers := containersAfter [step] p.spec.containers } } := by
  cases step with
  | preflightSecret secret =>
    cases secret <;> simp [Step.frame, assembled, lastGiven, Step.podName?, Step.podNs?,
      Step.owners?, Step.volumes]
  | _ =>
    simp [Step.frame, assembled, lastGiven, Step.podName?, Step.podNs?, Step.owners?, Step.volumes]

theorem Step.apply_assembled (h : step.apply p = .ok q) : q = assembled p [step] := by
  rw [apply_eq] at h
  rw [assembled_singleton, containersAfter_singleton]
  cases htarget : step.container? with
  | none =>
    rw [htarget] at h
    cases h
    rfl
  | some target =>
    rw [htarget] at h
    dsimp only at h
    split at h
    · cases h
      rfl
    · cases h

theorem assembled_nil (p : Pod) : assembled p [] = p := by
  simp [assembled, lastGiven, containersAfter, sidecarAfter, suiteAfter, mapIdx_keep]

/-! ## All steps -/

theorem build_assembled (h : build p steps = .ok q) : q = assembled p steps := by
  induction steps generalizing p with
  | nil =>
    cases h
    exact (assembled_nil _).symm
  | cons step steps ih =>
    obtain ⟨r, hr, hrest⟩ := build_cons_eq_ok h
    rw [ih hrest, Step.apply_assembled hr, ← assembled_append, List.singleton_append]

theorem build_eq_ok_iff : build p steps = .ok q ↔ Supplies p steps ∧ q = assembled p steps := by
  constructor
  · intro h
    exact ⟨exists_build_iff.1 ⟨q, h⟩, build_assembled h⟩
  · rintro ⟨hsupplies, rfl⟩
    obtain ⟨r, hr⟩ := exists_build_iff.2 hsupplies
    rwa [← build_assembled hr]

/-! ## Steps that change places -/

/-- What a build may write. -/
inductive Part where
  | podName
  | podNs
  | owners
  | sidecarImage
  | suiteImage
  | arguments
  | variables
  | mounts
  | volumes

/-- Does a step write a part? -/
def Step.Writes (step : Step) : Part → Prop
  | .podName => step.podName? ≠ none
  | .podNs => step.podNs? ≠ none
  | .owners => step.owners? ≠ none
  | .sidecarImage => step.sidecarImage? ≠ none
  | .suiteImage => step.suiteImage? ≠ none
  | .arguments => step.arguments ≠ []
  | .variables => step.variables ≠ []
  | .mounts => step.mounts ≠ []
  | .volumes => step.volumes ≠ []

theorem lastGiven_swap {α : Type} {given? : Step → Option α} {first second : Step}
    (h : ¬(given? first ≠ none ∧ given? second ≠ none)) (before : α) :
    lastGiven given? [first, second] before = lastGiven given? [second, first] before := by
  unfold lastGiven
  cases hfirst : given? first with
  | none => simp [hfirst]
  | some x =>
    cases hsecond : given? second with
    | none => simp [hfirst, hsecond]
    | some y => exact absurd ⟨by simp [hfirst], by simp [hsecond]⟩ h

theorem added_swap {α : Type} {added : Step → List α} {first second : Step}
    (h : ¬(added first ≠ [] ∧ added second ≠ [])) :
    [first, second].flatMap added = [second, first].flatMap added := by
  by_cases hfirst : added first = []
  · simp [hfirst]
  · have hsecond : added second = [] := Decidable.byContradiction fun hsecond => h ⟨hfirst, hsecond⟩
    simp [hsecond]

section Swap

variable {first second : Step}

theorem sidecarAfter_swap (h : ∀ part, ¬(first.Writes part ∧ second.Writes part)) :
    sidecarAfter [first, second] = sidecarAfter [second, first] := by
  funext c
  unfold sidecarAfter
  rw [lastGiven_swap (h .sidecarImage), added_swap (h .variables)]

theorem suiteAfter_swap (h : ∀ part, ¬(first.Writes part ∧ second.Writes part)) :
    suiteAfter [first, second] = suiteAfter [second, first] := by
  funext c
  unfold suiteAfter
  rw [lastGiven_swap (h .suiteImage), added_swap (h .arguments), added_swap (h .mounts)]

theorem assembled_swap (h : ∀ part, ¬(first.Writes part ∧ second.Writes part)) (p : Pod) :
    assembled p [first, second] = assembled p [second, first] := by
  unfold assembled containersAfter
  rw [lastGiven_swap (h .podName), lastGiven_swap (h .podNs), lastGiven_swap (h .owners),
    added_swap (h .volumes), sidecarAfter_swap h, suiteAfter_swap h]

theorem Supplies.swap {before after : List Step}
    (h : Supplies p (before ++ first :: second :: after)) :
    Supplies p (before ++ second :: first :: after) := by
  intro step hstep
  apply h
  simp only [List.mem_append, List.mem_cons] at hstep ⊢
  rcases hstep with hbefore | hsecond | hfirst | hafter
  · exact .inl hbefore
  · exact .inr (.inr (.inl hsecond))
  · exact .inr (.inl hfirst)
  · exact .inr (.inr (.inr hafter))

end Swap

/-- A built pod in closed form, and two neighbouring steps that write different parts. -/
theorem build_closed_form (template p : Pod) (steps : List Step)
    (h : build template steps = .ok p) :
    p = assembled template steps ∧
      ∀ before first second after, steps = before ++ first :: second :: after →
        (∀ part, ¬(first.Writes part ∧ second.Writes part)) →
          build template (before ++ second :: first :: after) = .ok p := by
  obtain ⟨hsupplies, hp⟩ := build_eq_ok_iff.1 h
  refine ⟨hp, ?_⟩
  rintro before first second after rfl hparts
  refine build_eq_ok_iff.2 ⟨hsupplies.swap, ?_⟩
  calc
    p = assembled template (before ++ [first, second] ++ after) := by simpa using hp
    _ = assembled (assembled (assembled template before) [first, second]) after := by
      rw [assembled_append, assembled_append]
    _ = assembled (assembled (assembled template before) [second, first]) after := by
      rw [assembled_swap hparts]
    _ = assembled template (before ++ [second, first] ++ after) := by
      rw [assembled_append, assembled_append]
    _ = assembled template (before ++ second :: first :: after) := by simp

/-- A template with two suites, the second of which stays as it is. -/
theorem build_closed_form_repeated :
    let template : Pod := {
      metadata := { name := "template" }
      spec := { containers := [suite, sidecar, { name := suiteContainer, args := ["idle"] }] } }
    let steps : List Step := [.name "first", .labelsFilter "access, networking",
      .preflightSecret (some "credentials"), .timeout "2h", .configMap "settings", .name "second"]
    let swapped : List Step := [.name "first", .labelsFilter "access, networking", .timeout "2h",
      .preflightSecret (some "credentials"), .configMap "settings", .name "second"]
    ∃ p, build template steps = .ok p ∧ p = assembled template steps ∧
      build template swapped = .ok p ∧ p.metadata.name = "second" ∧
      p.spec.containers.map (·.args) =
        [suite.args ++ ["-l", "access, networking", "--timeout", "2h"], [], ["idle"]] := by
  intro template steps swapped
  have hbuild : build template steps = .ok (assembled template steps) := by rfl
  obtain ⟨hclosed, hswap⟩ := build_closed_form template _ steps hbuild
  refine ⟨_, hbuild, hclosed, ?_, rfl, rfl⟩
  refine hswap [.name "first", .labelsFilter "access, networking"]
    (.preflightSecret (some "credentials")) (.timeout "2h") [.configMap "settings", .name "second"]
    rfl fun part hboth => ?_
  cases part <;>
    simp [Step.Writes, Step.podName?, Step.podNs?, Step.owners?, Step.sidecarImage?,
      Step.suiteImage?, Step.arguments, Step.variables, Step.mounts, Step.volumes] at hboth

end CertRuns.Job
