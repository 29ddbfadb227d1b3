import CertRuns.Job.Names
import CertRuns.Object.Pod
import CertRuns.Run.Basic

/-!
# Building the pod of a run

A pod is built from a template by a list of steps. A step that changes a container changes the
first one of its name and fails where there is none; it then leaves the pod as it was.

* `Step` with `Step.label`, `Step.container?` : one change and the container that it needs;
* `Step.change` : a step in place; `Step.apply` : what it makes of a pod;
* `build` : all steps in order, up to the first failure;
* `baseTemplate` : harvester and suite, sharing the results folder;
* `stepsForRun`, `forRun` : the steps that a run needs, and its pod.
-/

namespace CertRuns.Job

/-- One change to the pod under construction. -/
inductive Step where
  | name (name : String)
  | ns (ns : String)
  | runName (name : String)
  | labelsFilter (filter : String)
  | logLevel (level : String)
  | timeout (timeout : String)
  | configMap (name : String)
  | preflightSecret (name : Option String)
  | sidecarImage (image : String)
  | runnerImage (image : String)
  | dataCollection (enabled : Bool)
  | owner (owner : OwnerReference)
  deriving DecidableEq, Repr

def Step.label : Step → String
  | .name _ => "name"
  | .ns _ => "namespace"
  | .runName _ => "run name"
  | .labelsFilter _ => "labels filter"
  | .logLevel _ => "log level"
  | .timeout _ => "timeout"
  | .configMap _ => "config map"
  | .preflightSecret _ => "preflight secret"
  | .sidecarImage _ => "sidecar image"
  | .runnerImage _ => "runner image"
  | .dataCollection _ => "data collection"
  | .owner _ => "owner reference"

def Step.container? : Step → Option String
  | .runName _ | .sidecarImage _ => some sidecarContainer
  | .labelsFilter _ | .logLevel _ | .timeout _ | .runnerImage _ | .dataCollection _ =>
    some suiteContainer
  | .preflightSecret (some _) => some suiteContainer
  | _ => none

/-- A pod lacks a container that a step has to change. -/
structure MissingContainer where
  container : String
  pod : String
  step : String
  deriving DecidableEq, Repr

def MissingContainer.message (e : MissingContainer) : String :=
  "container " ++ e.container ++ " not found in pod " ++ e.pod ++ " (needed to apply " ++
    e.step ++ ")"

/-! ## One step -/

def adjustFirst (name : String) (f : Container → Container) : List Container → List Container
  | [] => []
  | c :: cs => if c.name = name then f c :: cs else c :: adjustFirst name f cs

/-- What a step does to the container that it changes. -/
def Step.adjust (step : Step) (c : Container) : Container :=
  match step with
  | .runName run => { c with env := c.env ++ [EnvVar.fixed runNameVariable run] }
  | .labelsFilter filter => { c with args := c.args ++ ["-l", filter] }
  | .logLevel level => { c with args := c.args ++ ["--log-level", level] }
  | .timeout limit => { c with args := c.args ++ ["--timeout", limit] }
  | .preflightSecret (some _) =>
    { c with volumeMounts := c.volumeMounts ++ [⟨preflightVolume, preflightFolder, true⟩] }
  | .sidecarImage image => { c with image := image }
  | .runnerImage image => { c with image := image }
  | .dataCollection enabled =>
    { c with args := c.args ++ ["--enable-data-collection", if enabled then "true" else "false"] }
  | _ => c

/-- What a step does to the rest of the pod. -/
def Step.frame (step : Step) (p : Pod) : Pod :=
  match step with
  | .name podName => { p with metadata := { p.metadata with name := podName } }
  | .ns podNamespace => { p with metadata := { p.metadata with ns := podNamespace } }
  | .configMap source =>
    let v : Volume := { name := configVolume, configMap := some { name := source } }
    { p with spec := { p.spec with volumes := p.spec.volumes ++ [v] } }
  | .preflightSecret (some secret) =>
    let v : Volume := { name := preflightVolume, secret := some { secretName := secret } }
    { p with spec := { p.spec with volumes := p.spec.volumes ++ [v] } }
  | .owner reference => { p with metadata := { p.metadata with owners := [reference] } }
  | _ => p

/-- A pod whose first container of a name is changed. -/
def adjustPod (target : String) (f : Container → Container) (p : Pod) : Pod :=
  { p with spec := { p.spec with containers := adjustFirst target f p.spec.containers } }

@[simp] theorem containers_adjustPod (target : String) (f : Container → Container) (p : Pod) :
    (adjustPod target f p).spec.containers = adjustFirst target f p.spec.containers := rfl

/-- A change to a pod in place. What it has done before it fails stays done. -/
abbrev PodChange := EStateM MissingContainer Pod Unit

/-- Change the first container of a name in place, for a step that an error calls `label`. -/
def changeContainer (target label : String) (f : Container → Container) : PodChange := do
  let p ← get
  if p.spec.containers.any (·.name == target) then set (adjustPod target f p)
  else throw ⟨target, p.metadata.name, label⟩

/-- A step in place: the container that it needs comes before the rest of the pod. -/
def Step.change (step : Step) : PodChange := do
  match step.container? with
  | some target => changeContainer target step.label step.adjust
  | none => pure ()
  modify step.frame

def Step.apply (step : Step) (p : Pod) : Except MissingContainer Pod :=
  match step.change.run p with
  | .ok _ q => .ok q
  | .error e _ => .error e

theorem changeContainer_run (target label : String) (f : Container → Container) (p : Pod) :
    (changeContainer target label f).run p =
      if p.spec.containers.any (·.name == target) then .ok () (adjustPod target f p)
      else .error ⟨target, p.metadata.name, label⟩ p := by
  show (if p.spec.containers.any (·.name == target) then _ else _ : PodChange) p = _
  split <;> rfl

/-- A step fails where the container that it needs is missing; else it changes both parts. -/
theorem Step.change_run (step : Step) (p : Pod) :
    step.change.run p =
      match step.container? with
      | none => .ok () (step.frame p)
      | some target =>
        if p.spec.containers.any (·.name == target) then
          .ok () (step.frame (adjustPod target step.adjust p))
        else .error ⟨target, p.metadata.name, step.label⟩ p := by
  unfold change
  cases step.container? with
  | none => rfl
  | some target =>
    have h := changeContainer_run target step.label step.adjust p
    show EStateM.bind (changeContainer target step.label step.adjust) _ p = _
    unfold EStateM.run at h
    unfold EStateM.bind
    dsimp only
    cases hany : p.spec.containers.any (·.name == target) <;>
      · rw [hany] at h
        rw [h]
        rfl

theorem Step.apply_eq (step : Step) (p : Pod) :
    step.apply p =
      match step.container? with
      | none => .ok (step.frame p)
      | some target =>
        if p.spec.containers.any (·.name == target) then
          .ok (step.frame (adjustPod target step.adjust p))
        else .error ⟨target, p.metadata.name, step.label⟩ := by
  rw [apply, change_run]
  cases step.container? with
  | none => rfl
  | some target =>
    dsimp only
    cases p.spec.containers.any (·.name == target) <;> rfl

def build (template : Pod) : List Step → Except MissingContainer Pod
  | [] => .ok template
  | step :: steps =>
    match step.apply template with
    | .ok p => build p steps
    | .error e => .error e

/-! ## The pod of a run -/

def sidecar : Container where
  name := sidecarContainer
  env := [EnvVar.podField podNameVariable "metadata.name",
    EnvVar.podField podNamespaceVariable "metadata.namespace",
    EnvVar.fixed resultsFolderVariable resultsFolder]
  imagePullPolicy := "IfNotPresent"
  volumeMounts := [⟨outputVolume, resultsFolder, true⟩]

def suite : Container where
  name := suiteContainer
  command := ["certsuite"]
  args := ["run", "-o", resultsFolder, "-c", configFile, "--preflight-dockerconfig",
    preflightFile, "--non-intrusive", "true"]
  imagePullPolicy := "Always"
  volumeMounts := [⟨outputVolume, resultsFolder, false⟩, ⟨configVolume, configFolder, true⟩]

def baseTemplate : Pod where
  spec := {
    serviceAccountName := serviceAccount
    restartPolicy := "Never"
    containers := [sidecar, suite]
    volumes := [{ name := outputVolume, emptyDir := some {} }] }

def stepsForRun (run : Run) (podName sidecarImage runnerImage : String) : List Step :=
  [.name podName, .ns run.metadata.ns, .runName run.metadata.name,
    .labelsFilter run.spec.labelsFilter, .logLevel run.spec.logLevel, .timeout run.spec.timeout,
    .configMap run.spec.configMapName, .preflightSecret run.spec.preflightSecretName,
    .sidecarImage sidecarImage, .runnerImage runnerImage,
    .dataCollection run.spec.enableDataCollection, .owner run.ownerReference]

def forRun (run : Run) (podName sidecarImage runnerImage : String) :
    Except MissingContainer Pod :=
  build baseTemplate (stepsForRun run podName sidecarImage runnerImage)

end CertRuns.Job
