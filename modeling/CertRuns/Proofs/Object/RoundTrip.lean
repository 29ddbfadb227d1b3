import CertRuns.Object.PodJson
import CertRuns.Proofs.Json.Records
import CertRuns.Proofs.Time.Timestamp

/-!
# Pods and metadata that are written are read again

Each type of the object model is read from its own record as it was. The one bound is on the time
of creation: only a year of four digits is written in the form that is read.

* `ObjectMeta.Plain` : the time of creation, if there is one, is `Timestamp.Plain`;
* `ofJson?_toJson` of each type, from the parts up to `ObjectMeta` and `Pod`.
-/

namespace CertRuns

open Json (elim_listSlot elim_optionSlot elim_tableSlot record_eq_present)

/-! ## Metadata -/

theorem OwnerReference.ofJson?_toJson (o : OwnerReference) :
    OwnerReference.ofJson? o.toJson = some o := by
  rw [OwnerReference.toJson, record_eq_present]
  simp [OwnerReference.ofJson?]

theorem Timestamp.ofJson?_toJson {t : Timestamp} (h : t.Plain) :
    Timestamp.ofJson? t.toJson = some t := by
  simp [Timestamp.ofJson?, Timestamp.toJson, Timestamp.parse?_text h]

/-- Is the year of creation, if there is one, of four digits? -/
def ObjectMeta.Plain (m : ObjectMeta) : Prop := ∀ t ∈ m.created, t.Plain

theorem ObjectMeta.ofJson?_toJson {m : ObjectMeta} (h : m.Plain) :
    ObjectMeta.ofJson? m.toJson = some m := by
  have hlabels := elim_tableSlot (t := m.labels) fun e _ => Json.text?_ofText e.2
  have howners := elim_listSlot (l := m.owners) fun o _ => o.ofJson?_toJson
  have hcreated :=
    elim_optionSlot (o := m.created) rfl fun t ht => Timestamp.ofJson?_toJson (h t ht)
  simp [ObjectMeta.ofJson?, ObjectMeta.toJson, hlabels, howners, hcreated]

/-! ## Containers -/

theorem FieldRef.ofJson?_toJson (r : FieldRef) : FieldRef.ofJson? r.toJson = some r := by
  rw [FieldRef.toJson, record_eq_present]
  simp [FieldRef.ofJson?]

theorem EnvVarSource.ofJson?_toJson (s : EnvVarSource) :
    EnvVarSource.ofJson? s.toJson = some s := by
  have hfieldRef := elim_optionSlot (o := s.fieldRef) rfl fun r _ => r.ofJson?_toJson
  simp [EnvVarSource.ofJson?, EnvVarSource.toJson, hfieldRef]

theorem EnvVar.ofJson?_toJson (e : EnvVar) : EnvVar.ofJson? e.toJson = some e := by
  have hvalue := elim_optionSlot (o := e.value) rfl fun s _ => Json.text?_ofText s
  have hvalueFrom := elim_optionSlot (o := e.valueFrom) rfl fun s _ => s.ofJson?_toJson
  simp [EnvVar.ofJson?, EnvVar.toJson, hvalue, hvalueFrom]

theorem VolumeMount.ofJson?_toJson (v : VolumeMount) :
    VolumeMount.ofJson? v.toJson = some v := by
  simp [VolumeMount.ofJson?, VolumeMount.toJson]

theorem Container.ofJson?_toJson (c : Container) : Container.ofJson? c.toJson = some c := by
  have htexts (l : List String) := elim_listSlot (l := l) fun s _ => Json.text?_ofText s
  have henv := elim_listSlot (l := c.env) fun e _ => e.ofJson?_toJson
  have hmounts := elim_listSlot (l := c.volumeMounts) fun v _ => v.ofJson?_toJson
  simp [Container.ofJson?, Container.toJson, htexts, henv, hmounts]

/-! ## Volumes -/

theorem EmptyDir.ofJson?_toJson (d : EmptyDir) : EmptyDir.ofJson? d.toJson = some d := rfl

theorem ConfigMapSource.ofJson?_toJson (s : ConfigMapSource) :
    ConfigMapSource.ofJson? s.toJson = some s := by
  rw [ConfigMapSource.toJson, record_eq_present]
  simp [ConfigMapSource.ofJson?]

theorem SecretSource.ofJson?_toJson (s : SecretSource) :
    SecretSource.ofJson? s.toJson = some s := by
  rw [SecretSource.toJson, record_eq_present]
  simp [SecretSource.ofJson?]

theorem Volume.ofJson?_toJson (v : Volume) : Volume.ofJson? v.toJson = some v := by
  have hemptyDir := elim_optionSlot (o := v.emptyDir) rfl fun d _ => d.ofJson?_toJson
  have hconfigMap := elim_optionSlot (o := v.configMap) rfl fun s _ => s.ofJson?_toJson
  have hsecret := elim_optionSlot (o := v.secret) rfl fun s _ => s.ofJson?_toJson
  simp [Volume.ofJson?, Volume.toJson, hemptyDir, hconfigMap, hsecret]

theorem PodSpec.ofJson?_toJson (s : PodSpec) : PodSpec.ofJson? s.toJson = some s := by
  have hcontainers := Json.list?_ofList (l := s.containers) fun c _ => c.ofJson?_toJson
  have hvolumes := elim_listSlot (l := s.volumes) fun v _ => v.ofJson?_toJson
  simp [PodSpec.ofJson?, PodSpec.toJson, hcontainers, hvolumes]

/-! ## Status -/

theorem PodPhase.ofJson?_toJson (p : PodPhase) : PodPhase.ofJson? p.toJson = some p := by
  simp [PodPhase.ofJson?, PodPhase.toJson, PodPhase.ofText_text]

theorem Termination.ofJson?_toJson (t : Termination) :
    Termination.ofJson? t.toJson = some t := by
  have hlow : (-2147483648 : Int) ≤ t.exitCode.toInt := t.exitCode.le_toInt
  have hhigh : t.exitCode.toInt < 2147483648 := t.exitCode.toInt_lt
  have hexitCode := Json.integer?_ofInt ⟨hlow, hhigh⟩
  have hreason := elim_optionSlot (o := t.reason) rfl fun s _ => Json.text?_ofText s
  simp [Termination.ofJson?, Termination.toJson, hexitCode, hreason]

theorem ContainerState.ofJson?_toJson (s : ContainerState) :
    ContainerState.ofJson? s.toJson = some s := by
  have hterminated := elim_optionSlot (o := s.terminated) rfl fun t _ => t.ofJson?_toJson
  simp [ContainerState.ofJson?, ContainerState.toJson, hterminated]

theorem ContainerStatus.ofJson?_toJson (s : ContainerStatus) :
    ContainerStatus.ofJson? s.toJson = some s := by
  rw [ContainerStatus.toJson, record_eq_present]
  simp [ContainerStatus.ofJson?, s.state.ofJson?_toJson]

theorem PodStatus.ofJson?_toJson (s : PodStatus) : PodStatus.ofJson? s.toJson = some s := by
  have hcontainers := elim_listSlot (l := s.containers) fun c _ => c.ofJson?_toJson
  simp [PodStatus.ofJson?, PodStatus.toJson, s.phase.ofJson?_toJson, hcontainers]

/-! ## Pods -/

theorem Pod.ofJson?_toJson {p : Pod} (h : p.metadata.Plain) : Pod.ofJson? p.toJson = some p := by
  have hmetadata := ObjectMeta.ofJson?_toJson h
  have hstatus := elim_optionSlot (o := p.status) rfl fun s _ => s.ofJson?_toJson
  simp [Pod.ofJson?, Pod.toJson, hmetadata, p.spec.ofJson?_toJson, hstatus]

end CertRuns
