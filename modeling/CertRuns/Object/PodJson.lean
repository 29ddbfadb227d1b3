import CertRuns.Object.Pod

/-!
# Pods as JSON

Reading and writing the parts of a pod under the names that the cluster uses. Parts that are empty
are left out in writing, and a part that may be left out may be missing in reading. Each type has
`toJson` and `ofJson?`.
-/

namespace CertRuns

open Json (text? bool? list? nullable? natural? integer?)

/-! ## Containers -/

def FieldRef.toJson (r : FieldRef) : Json := .record [("fieldPath", .ofText r.fieldPath)]

def FieldRef.ofJson? (j : Json) : Option FieldRef := do
  let m ← j.members? ["fieldPath"]
  return { fieldPath := ← m.required "fieldPath" text? }

def EnvVarSource.toJson (s : EnvVarSource) : Json :=
  .record (Json.optionField "fieldRef" FieldRef.toJson s.fieldRef)

def EnvVarSource.ofJson? (j : Json) : Option EnvVarSource := do
  let m ← j.members? ["fieldRef"]
  return { fieldRef := ← m.optional "fieldRef" (nullable? FieldRef.ofJson?) none }

def EnvVar.toJson (e : EnvVar) : Json :=
  .record (Json.field "name" (.ofText e.name) ++ Json.optionField "value" Json.ofText e.value ++
    Json.optionField "valueFrom" EnvVarSource.toJson e.valueFrom)

def EnvVar.ofJson? (j : Json) : Option EnvVar := do
  let m ← j.members? ["name", "value", "valueFrom"]
  return {
    name := ← m.required "name" text?
    value := ← m.optional "value" (nullable? text?) none
    valueFrom := ← m.optional "valueFrom" (nullable? EnvVarSource.ofJson?) none }

def VolumeMount.toJson (v : VolumeMount) : Json :=
  .record (Json.field "name" (.ofText v.name) ++
    Json.field "mountPath" (.ofText v.mountPath) ++ Json.flagField "readOnly" v.readOnly)

def VolumeMount.ofJson? (j : Json) : Option VolumeMount := do
  let m ← j.members? ["name", "mountPath", "readOnly"]
  return {
    name := ← m.required "name" text?
    mountPath := ← m.required "mountPath" text?
    readOnly := ← m.optional "readOnly" bool? false }

def Container.toJson (c : Container) : Json :=
  .record (Json.field "name" (.ofText c.name) ++ Json.textField "image" c.image ++
    Json.listField "command" Json.ofText c.command ++
    Json.listField "args" Json.ofText c.args ++ Json.listField "env" EnvVar.toJson c.env ++
    Json.textField "imagePullPolicy" c.imagePullPolicy ++
    Json.listField "volumeMounts" VolumeMount.toJson c.volumeMounts)

def Container.ofJson? (j : Json) : Option Container := do
  let m ← j.members? ["name", "image", "command", "args", "env", "imagePullPolicy",
    "volumeMounts"]
  return {
    name := ← m.required "name" text?
    image := ← m.optional "image" text? ""
    command := ← m.optional "command" (list? text?) []
    args := ← m.optional "args" (list? text?) []
    env := ← m.optional "env" (list? EnvVar.ofJson?) []
    imagePullPolicy := ← m.optional "imagePullPolicy" text? ""
    volumeMounts := ← m.optional "volumeMounts" (list? VolumeMount.ofJson?) [] }

/-! ## Volumes -/

def EmptyDir.toJson (_ : EmptyDir) : Json := .record []

def EmptyDir.ofJson? (j : Json) : Option EmptyDir := do
  let _ ← j.members? []
  return {}

def ConfigMapSource.toJson (s : ConfigMapSource) : Json := .record [("name", .ofText s.name)]

def ConfigMapSource.ofJson? (j : Json) : Option ConfigMapSource := do
  let m ← j.members? ["name"]
  return { name := ← m.required "name" text? }

def SecretSource.toJson (s : SecretSource) : Json :=
  .record [("secretName", .ofText s.secretName)]

def SecretSource.ofJson? (j : Json) : Option SecretSource := do
  let m ← j.members? ["secretName"]
  return { secretName := ← m.required "secretName" text? }

def Volume.toJson (v : Volume) : Json :=
  .record (Json.field "name" (.ofText v.name) ++
    Json.optionField "emptyDir" EmptyDir.toJson v.emptyDir ++
    Json.optionField "configMap" ConfigMapSource.toJson v.configMap ++
    Json.optionField "secret" SecretSource.toJson v.secret)

def Volume.ofJson? (j : Json) : Option Volume := do
  let m ← j.members? ["name", "emptyDir", "configMap", "secret"]
  return {
    name := ← m.required "name" text?
    emptyDir := ← m.optional "emptyDir" (nullable? EmptyDir.ofJson?) none
    configMap := ← m.optional "configMap" (nullable? ConfigMapSource.ofJson?) none
    secret := ← m.optional "secret" (nullable? SecretSource.ofJson?) none }

def PodSpec.toJson (s : PodSpec) : Json :=
  .record (Json.textField "serviceAccountName" s.serviceAccountName ++
    Json.textField "restartPolicy" s.restartPolicy ++
    Json.field "containers" (.ofList Container.toJson s.containers) ++
    Json.listField "volumes" Volume.toJson s.volumes)

def PodSpec.ofJson? (j : Json) : Option PodSpec := do
  let m ← j.members? ["serviceAccountName", "restartPolicy", "containers", "volumes"]
  return {
    serviceAccountName := ← m.optional "serviceAccountName" text? ""
    restartPolicy := ← m.optional "restartPolicy" text? ""
    containers := ← m.optional "containers" (list? Container.ofJson?) []
    volumes := ← m.optional "volumes" (list? Volume.ofJson?) [] }

/-! ## Status -/

def PodPhase.toJson (p : PodPhase) : Json := .ofText p.text

def PodPhase.ofJson? (j : Json) : Option PodPhase := j.choice?.map PodPhase.ofText

def Termination.toJson (t : Termination) : Json :=
  .record (Json.field "exitCode" (.ofInt t.exitCode.toInt) ++
    Json.optionField "reason" Json.ofText t.reason)

def Termination.ofJson? (j : Json) : Option Termination := do
  let m ← j.members? ["exitCode", "reason"]
  return {
    exitCode := Int32.ofInt (← m.required "exitCode" (integer? (-2147483648) 2147483648))
    reason := ← m.optional "reason" (nullable? text?) none }

def ContainerState.toJson (s : ContainerState) : Json :=
  .record (Json.optionField "terminated" Termination.toJson s.terminated)

def ContainerState.ofJson? (j : Json) : Option ContainerState := do
  let m ← j.members? ["terminated"]
  return { terminated := ← m.optional "terminated" (nullable? Termination.ofJson?) none }

def ContainerStatus.toJson (s : ContainerStatus) : Json :=
  .record [("name", .ofText s.name), ("state", s.state.toJson)]

def ContainerStatus.ofJson? (j : Json) : Option ContainerStatus := do
  let m ← j.members? ["name", "state"]
  return {
    name := ← m.required "name" text?
    state := ← m.optional "state" ContainerState.ofJson? {} }

def PodStatus.toJson (s : PodStatus) : Json :=
  .record (Json.field "phase" s.phase.toJson ++
    Json.listField "containerStatuses" ContainerStatus.toJson s.containers)

def PodStatus.ofJson? (j : Json) : Option PodStatus := do
  let m ← j.members? ["phase", "containerStatuses"]
  return {
    phase := ← m.optional "phase" PodPhase.ofJson? .pending
    containers := ← m.optional "containerStatuses" (list? ContainerStatus.ofJson?) [] }

/-! ## Pods -/

def Pod.toJson (p : Pod) : Json :=
  .record (Json.field "apiVersion" (.ofText p.apiVersion) ++
    Json.field "kind" (.ofText p.kind) ++ Json.field "metadata" p.metadata.toJson ++
    Json.field "spec" p.spec.toJson ++ Json.optionField "status" PodStatus.toJson p.status)

def Pod.ofJson? (j : Json) : Option Pod := do
  let m ← j.members? ["apiVersion", "kind", "metadata", "spec", "status"]
  return {
    apiVersion := ← m.optional "apiVersion" text? "v1"
    kind := ← m.optional "kind" text? "Pod"
    metadata := ← m.optional "metadata" ObjectMeta.ofJson? {}
    spec := ← m.optional "spec" PodSpec.ofJson? {}
    status := ← m.optional "status" (nullable? PodStatus.ofJson?) none }

end CertRuns
