import CertRuns.Harvest.Settings
import CertRuns.Proofs.Job.Build

/-!
# The pod of a run and its harvester agree

The builder tells the harvester through the environment of a container which run it works for and
where the results appear, and tells the suite through its arguments where to leave them. Both
containers have to see one volume there.

* `Pod.field?`, `EnvVar.resolve?`, `Container.lookup?` : what a container finds in its
  environment when it runs in a pod; `Container.argument?` : what follows a flag;
* `sidecarOf`, `suiteOf`, `forRun_eq_ok`, `forRun_volumes`, `forRun_owners` : the pod of
  a run, part by part;
* `Agreement run pod` : what the two containers of a run's pod rely on; `forRun_agreement`.
-/

namespace CertRuns

/-! ## What a container is told -/

def Pod.field? (p : Pod) (path : String) : Option String :=
  if path = "metadata.name" then some p.metadata.name
  else if path = "metadata.namespace" then some p.metadata.ns
  else if path = "metadata.uid" then some p.metadata.uid
  else none

def EnvVar.resolve? (v : EnvVar) (p : Pod) : Option String :=
  match v.valueFrom.bind (·.fieldRef) with
  | some field => p.field? field.fieldPath
  | none => v.value

/-- What a container that runs in a pod finds under a name; the last entry of a name counts. -/
def Container.lookup? (c : Container) (p : Pod) (name : String) : Option String :=
  (c.env.reverse.find? (·.name == name)).bind (·.resolve? p)

def Container.argument? (c : Container) (flag : String) : Option String :=
  (c.args.dropWhile (· ≠ flag))[1]?

/-- The volumes that a container sees under a path. -/
def Container.mountsAt (c : Container) (path : String) : List VolumeMount :=
  c.volumeMounts.filter (·.mountPath == path)

namespace Job

variable {run : Run} {podName sidecarImage runnerImage : String} {pod : Pod}

/-! ## The pod of a run -/

/-- The mount of the preflight credentials, if there are any. -/
def preflightMounts (run : Run) : List VolumeMount :=
  match run.spec.preflightSecretName with
  | none => []
  | some _ => [⟨preflightVolume, preflightFolder, true⟩]

/-- The volume of the preflight credentials, if there are any. -/
def preflightVolumes (run : Run) : List Volume :=
  match run.spec.preflightSecretName with
  | none => []
  | some secret => [{ name := preflightVolume, secret := some { secretName := secret } }]

def sidecarOf (run : Run) (image : String) : Container :=
  { sidecar with
    image := image
    env := sidecar.env ++ [EnvVar.fixed runNameVariable run.metadata.name] }

def suiteOf (run : Run) (image : String) : Container :=
  { suite with
    image := image
    args := suite.args ++ ["-l", run.spec.labelsFilter, "--log-level", run.spec.logLevel,
      "--timeout", run.spec.timeout, "--enable-data-collection",
      if run.spec.enableDataCollection then "true" else "false"]
    volumeMounts := suite.volumeMounts ++ preflightMounts run }

theorem containerNames_baseTemplate :
    baseTemplate.containerNames = [sidecarContainer, suiteContainer] := rfl

theorem forRun_eq_ok (run : Run) (podName sidecarImage runnerImage : String) :
    ∃ pod, forRun run podName sidecarImage runnerImage = .ok pod := by
  refine build_eq_ok fun step _ target htarget => ?_
  rw [containerNames_baseTemplate]
  cases step with
  | preflightSecret secret => cases secret <;> simp_all [Step.container?]
  | _ => simp_all [Step.container?]

theorem forRun_sidecar (h : forRun run podName sidecarImage runnerImage = .ok pod) :
    pod.container? sidecarContainer = some (sidecarOf run sidecarImage) := by
  have hbase : baseTemplate.container? sidecarContainer = some sidecar := rfl
  rw [build_container? h, hbase, Option.map_some]
  cases hs : run.spec.preflightSecretName <;>
    simp [stepsForRun, Step.adjustAt, Step.container?, Step.adjust, sidecarOf, hs,
      sidecar_ne_suite.symm]

theorem forRun_suite (h : forRun run podName sidecarImage runnerImage = .ok pod) :
    pod.container? suiteContainer = some (suiteOf run runnerImage) := by
  have hbase : baseTemplate.container? suiteContainer = some suite := rfl
  rw [build_container? h, hbase, Option.map_some]
  cases hs : run.spec.preflightSecretName <;>
    simp [stepsForRun, Step.adjustAt, Step.container?, Step.adjust, suiteOf, preflightMounts, hs,
      sidecar_ne_suite]

theorem forRun_volumes (h : forRun run podName sidecarImage runnerImage = .ok pod) :
    pod.spec.volumes = [{ name := outputVolume, emptyDir := some {} },
      { name := configVolume, configMap := some { name := run.spec.configMapName } }] ++
        preflightVolumes run := by
  rw [build_volumes h]
  cases hs : run.spec.preflightSecretName <;>
    simp [stepsForRun, Step.volumes, preflightVolumes, hs, baseTemplate]

theorem forRun_owners (h : forRun run podName sidecarImage runnerImage = .ok pod) :
    pod.metadata.owners = [run.ownerReference] := by
  rw [build_metadata rfl h]
  cases hs : run.spec.preflightSecretName <;> simp [stepsForRun, Step.frame, hs]

/-- A container of the pod of a run is one of two. -/
theorem forRun_container (h : forRun run podName sidecarImage runnerImage = .ok pod)
    {c : Container} (hc : c ∈ pod.spec.containers) :
    pod.container? sidecarContainer = some c ∨ pod.container? suiteContainer = some c := by
  have hnames : pod.containerNames = [sidecarContainer, suiteContainer] := by
    rw [build_containerNames h, containerNames_baseTemplate]
  have hfound : pod.container? c.name = some c :=
    Pod.container?_eq_of_mem (by rw [hnames]; decide) hc
  have hname : c.name ∈ pod.containerNames := List.mem_map_of_mem hc
  rw [hnames] at hname
  simp only [List.mem_cons, List.not_mem_nil, or_false] at hname
  rcases hname with hname | hname
  · exact .inl (hname ▸ hfound)
  · exact .inr (hname ▸ hfound)

/-! ## What the containers rely on -/

/-- What the harvester and the suite in the pod of a run rely on. -/
structure Agreement (run : Run) (pod : Pod) (harvester suite : Container) : Prop where
  harvester_eq : pod.container? sidecarContainer = some harvester
  suite_eq : pod.container? suiteContainer = some suite
  /-- The harvester finds its settings; they name the run and the results folder. -/
  settings_eq : HarvestSettings.ofEnvironment (harvester.lookup? pod) =
    .ok { resultsFolder, run := run.key }
  /-- The suite is told to leave its results there. -/
  argument_eq : suite.argument? "-o" = some resultsFolder
  /-- Both containers have one and the same volume there, and only the suite may write to it. -/
  shared : ∃ volume ∈ pod.spec.volumes,
    harvester.mountsAt resultsFolder = [⟨volume.name, resultsFolder, true⟩] ∧
      suite.mountsAt resultsFolder = [⟨volume.name, resultsFolder, false⟩]
  /-- No container mounts a volume that the pod does not have. -/
  declared : ∀ c ∈ pod.spec.containers, ∀ m ∈ c.volumeMounts,
    ∃ volume ∈ pod.spec.volumes, volume.name = m.name
  distinct : (pod.spec.volumes.map (·.name)).Nodup
  owners_eq : pod.metadata.owners =
    [⟨run.apiVersion, run.kind, run.metadata.name, run.metadata.uid⟩]

theorem requireVariable_eq_ok {lookup : String → Option String} {name value : String}
    (h : lookup name = some value) (hvalue : value ≠ "") :
    requireVariable lookup name = .ok value := by
  rw [requireVariable, h]
  exact if_neg hvalue

/-- The harvester in the pod of a run finds its settings. -/
theorem forRun_settings (hpod : forRun run podName sidecarImage runnerImage = .ok pod)
    (hname : run.metadata.name ≠ "") (hns : run.metadata.ns ≠ "") :
    HarvestSettings.ofEnvironment ((sidecarOf run sidecarImage).lookup? pod) =
      .ok { resultsFolder, run := run.key } := by
  have hpodNs : pod.metadata.ns = run.metadata.ns := congrArg ObjectKey.ns (forRun_key hpod)
  have hfolder : (sidecarOf run sidecarImage).lookup? pod resultsFolderVariable =
      some resultsFolder := rfl
  have hnsFound : (sidecarOf run sidecarImage).lookup? pod podNamespaceVariable =
      some run.metadata.ns := by
    rw [← hpodNs]
    rfl
  have hnameFound : (sidecarOf run sidecarImage).lookup? pod runNameVariable =
      some run.metadata.name := rfl
  rw [HarvestSettings.ofEnvironment, requireVariable_eq_ok hfolder (by decide),
    requireVariable_eq_ok hnsFound hns, requireVariable_eq_ok hnameFound hname]
  rfl

/-- The preflight credentials are mounted iff there is a volume of them. -/
theorem map_name_preflight (run : Run) :
    (preflightMounts run).map (·.name) = (preflightVolumes run).map (·.name) := by
  cases hs : run.spec.preflightSecretName <;> simp [preflightMounts, preflightVolumes, hs]

/-- Every container of the pod of a run mounts volumes that the pod has. -/
theorem forRun_declared (hpod : forRun run podName sidecarImage runnerImage = .ok pod)
    {c : Container} (hc : c ∈ pod.spec.containers) {m : VolumeMount} (hm : m ∈ c.volumeMounts) :
    ∃ volume ∈ pod.spec.volumes, volume.name = m.name := by
  have hname : m.name ∈ c.volumeMounts.map (·.name) := List.mem_map_of_mem hm
  suffices hmem : m.name ∈ pod.spec.volumes.map (·.name) from List.mem_map.1 hmem
  rw [forRun_volumes hpod, List.map_append, ← map_name_preflight]
  rcases forRun_container hpod hc with hfound | hfound
  · rw [forRun_sidecar hpod, Option.some.injEq] at hfound
    subst hfound
    simp only [sidecarOf, sidecar, List.map_cons, List.map_nil, List.mem_singleton] at hname
    simp [hname]
  · rw [forRun_suite hpod, Option.some.injEq] at hfound
    subst hfound
    simpa [suiteOf, suite] using hname

/-- The pod of a run can be built, and its harvester and its suite agree. -/
theorem forRun_agreement (run : Run) (podName sidecarImage runnerImage : String)
    (hname : run.metadata.name ≠ "") (hns : run.metadata.ns ≠ "") :
    ∃ pod harvester suite, forRun run podName sidecarImage runnerImage = .ok pod ∧
      Agreement run pod harvester suite := by
  obtain ⟨pod, hpod⟩ := forRun_eq_ok run podName sidecarImage runnerImage
  refine ⟨pod, sidecarOf run sidecarImage, suiteOf run runnerImage, hpod, ?_⟩
  constructor
  case harvester_eq => exact forRun_sidecar hpod
  case suite_eq => exact forRun_suite hpod
  case settings_eq => exact forRun_settings hpod hname hns
  case argument_eq => rfl
  case shared =>
    refine ⟨{ name := outputVolume, emptyDir := some {} }, ?_, rfl, ?_⟩
    · rw [forRun_volumes hpod]
      exact List.mem_cons_self ..
    · cases hs : run.spec.preflightSecretName <;>
        simp [Container.mountsAt, suiteOf, preflightMounts, hs] <;> decide
  case declared => exact fun c hc m hm => forRun_declared hpod hc hm
  case distinct =>
    rw [forRun_volumes hpod]
    cases hs : run.spec.preflightSecretName <;> simp [preflightVolumes, hs] <;> decide
  case owners_eq => exact forRun_owners hpod

/-- A run with preflight credentials. -/
theorem forRun_agreement_preflight :
    let run : Run := {
      metadata := { name := "run-1", ns := "ops", uid := "1234-abcd" }
      spec := { labelsFilter := "networking", preflightSecretName := some "credentials" } }
    ∃ pod harvester suite, forRun run "cnf-job-run-1" "sidecar:v1" "certsuite:v5" = .ok pod ∧
      Agreement run pod harvester suite :=
  forRun_agreement _ _ _ _ (by decide) (by decide)

end Job

end CertRuns
