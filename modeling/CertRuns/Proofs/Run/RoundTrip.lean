import CertRuns.Proofs.Json.RoundTrip
import CertRuns.Proofs.Object.RoundTrip
import CertRuns.Run.RunJson

/-!
# Runs that are written are read again

* `Summary.Fits` : the counts are of 64 bits;
* `Run.Plain` : the counts of a report fit, and the time of creation is `Timestamp.Plain`;
* `ofJson?_toJson` of each type, from the parts of a report up to `Run`;
* `Faithful fits write read?` : values that fit are read as they were written, documents settle
  when they are read and written, and different values have different documents;
* `documents_faithful` : runs and pods, with and without blanks.
-/

namespace CertRuns

open Json (elim_listSlot elim_optionSlot natural? record_eq_present)

/-! ## Reports -/

theorem Verdict.ofJson?_toJson (v : Verdict) : Verdict.ofJson? v.toJson = some v := by
  simp [Verdict.ofJson?, Verdict.toJson, Verdict.ofText?_text]

/-- Are the counts of 64 bits? -/
structure Summary.Fits (s : Summary) : Prop where
  total : s.total < longBound
  passed : s.passed < longBound
  skipped : s.skipped < longBound
  failed : s.failed < longBound
  errored : s.errored < longBound

/-- The counts that a record gives, for any decoder of a count. The decoder of 64-bit numbers has a
bound that is too large to be unfolded. -/
def Summary.read? (count? : Json → Option Nat) (j : Json) : Option Summary := do
  let m ← j.members? ["total", "passed", "skipped", "failed", "errored"]
  return {
    total := ← m.required "total" count?
    passed := ← m.required "passed" count?
    skipped := ← m.required "skipped" count?
    failed := ← m.required "failed" count?
    errored := ← m.required "errored" count? }

theorem Summary.ofJson?_eq_read? : Summary.ofJson? = Summary.read? natural? := rfl

/-- Counts are read if each of them is. -/
theorem Summary.read?_toJson {s : Summary} {count? : Json → Option Nat}
    (htotal : count? (.ofNat s.total) = some s.total)
    (hpassed : count? (.ofNat s.passed) = some s.passed)
    (hskipped : count? (.ofNat s.skipped) = some s.skipped)
    (hfailed : count? (.ofNat s.failed) = some s.failed)
    (herrored : count? (.ofNat s.errored) = some s.errored) :
    Summary.read? count? s.toJson = some s := by
  rw [Summary.toJson, record_eq_present]
  simp [Summary.read?, htotal, hpassed, hskipped, hfailed, herrored]

theorem Summary.ofJson?_toJson {s : Summary} (h : s.Fits) : Summary.ofJson? s.toJson = some s := by
  rw [Summary.ofJson?_eq_read?]
  exact Summary.read?_toJson (Json.natural?_ofNat h.total) (Json.natural?_ofNat h.passed)
    (Json.natural?_ofNat h.skipped) (Json.natural?_ofNat h.failed) (Json.natural?_ofNat h.errored)

theorem CaseState.ofJson?_toJson (s : CaseState) : CaseState.ofJson? s.toJson = some s := by
  simp [CaseState.ofJson?, CaseState.toJson, CaseState.ofText?_text]

theorem TargetObject.ofJson?_toJson (t : TargetObject) : TargetObject.ofJson? t.toJson = some t :=
  Json.table?_ofTable fun e _ => Json.text?_ofText e.2

theorem CaseTargets.ofJson?_toJson (t : CaseTargets) : CaseTargets.ofJson? t.toJson = some t := by
  have hobjects (l : List TargetObject) :=
    Json.list?_ofList (l := l) fun t _ => TargetObject.ofJson?_toJson t
  rw [CaseTargets.toJson, record_eq_present]
  simp [CaseTargets.ofJson?, hobjects]

theorem CaseResult.ofJson?_toJson (r : CaseResult) : CaseResult.ofJson? r.toJson = some r := by
  have htargets := elim_optionSlot (o := r.targets) rfl fun t _ => t.ofJson?_toJson
  simp [CaseResult.ofJson?, CaseResult.toJson, r.state.ofJson?_toJson, htargets]

theorem InventoryPod.ofJson?_toJson (p : InventoryPod) :
    InventoryPod.ofJson? p.toJson = some p := by
  have hcontainers := elim_listSlot (l := p.containers) fun s _ => Json.text?_ofText s
  simp [InventoryPod.ofJson?, InventoryPod.toJson, hcontainers]

theorem InventoryObject.ofJson?_toJson (o : InventoryObject) :
    InventoryObject.ofJson? o.toJson = some o := by
  simp [InventoryObject.ofJson?, InventoryObject.toJson]

theorem Inventory.ofJson?_toJson (i : Inventory) : Inventory.ofJson? i.toJson = some i := by
  have htexts (l : List String) := elim_listSlot (l := l) fun s _ => Json.text?_ofText s
  have hpods := elim_listSlot (l := i.pods) fun p _ => p.ofJson?_toJson
  have hobjects (l : List InventoryObject) := elim_listSlot (l := l) fun o _ => o.ofJson?_toJson
  simp [Inventory.ofJson?, Inventory.toJson, htexts, hpods, hobjects]

theorem Report.ofJson?_toJson {r : Report} (h : r.summary.Fits) :
    Report.ofJson? r.toJson = some r := by
  have hresults := Json.list?_ofList (l := r.results) fun c _ => c.ofJson?_toJson
  rw [Report.toJson, record_eq_present]
  simp [Report.ofJson?, r.verdict.ofJson?_toJson, r.inventory.ofJson?_toJson,
    Summary.ofJson?_toJson h, hresults]

/-! ## Runs -/

theorem RunSpec.ofJson?_toJson (s : RunSpec) : RunSpec.ofJson? s.toJson = some s := by
  have hsecret := elim_optionSlot (o := s.preflightSecretName) rfl fun s _ => Json.text?_ofText s
  simp [RunSpec.ofJson?, RunSpec.toJson, hsecret]

theorem Phase.ofJson?_toJson (p : Phase) : Phase.ofJson? p.toJson = some p := by
  simp [Phase.ofJson?, Phase.toJson, Phase.ofText?_text]

theorem RunStatus.ofJson?_toJson {s : RunStatus} (h : ∀ report ∈ s.report, report.summary.Fits) :
    RunStatus.ofJson? s.toJson = some s := by
  have hpodName := elim_optionSlot (o := s.podName) rfl fun s _ => Json.text?_ofText s
  have hreport := elim_optionSlot (o := s.report) rfl fun r hr => Report.ofJson?_toJson (h r hr)
  simp [RunStatus.ofJson?, RunStatus.toJson, s.phase.ofJson?_toJson, hpodName, hreport]

/-- Can all parts of a run be written in the form that is read? -/
structure Run.Plain (r : Run) : Prop where
  created : r.metadata.Plain
  counts : ∀ report ∈ r.status.report, report.summary.Fits

theorem Run.ofJson?_toJson {r : Run} (h : r.Plain) : Run.ofJson? r.toJson = some r := by
  rw [Run.toJson, record_eq_present]
  simp [Run.ofJson?, ObjectMeta.ofJson?_toJson h.created, r.spec.ofJson?_toJson,
    RunStatus.ofJson?_toJson h.counts]

/-! ## Documents -/

/-- Values that fit survive in their documents. -/
structure Faithful {α : Type} (fits : α → Prop) (write : α → String)
    (read? : String → Option α) : Prop where
  /-- What is read is what was written. -/
  read_write : ∀ a, fits a → read? (write a) = some a
  /-- Reading and writing a document a second time changes nothing. -/
  settles : ∀ document a, read? document = some a → fits a →
    ((read? document).map write).bind (fun text => (read? text).map write) =
      (read? document).map write
  /-- No part of a value is lost: values that are written alike are equal. -/
  injective : ∀ a b, fits a → fits b → write a = write b → a = b

/-- Documents are faithful if their text is parsed as it was laid out, and the values decoded as
they were encoded. -/
theorem faithful_of_parse {α : Type} {fits : α → Prop} {encode : α → Json}
    {decode? : Json → Option α} {layout : Json → String}
    (hparse : ∀ v, Json.parseText (layout v) = some v)
    (hdecode : ∀ a, fits a → decode? (encode a) = some a) :
    Faithful fits (fun a => layout (encode a)) (fun s => (Json.parseText s).bind decode?) := by
  have hread : ∀ a, fits a →
      (Json.parseText (layout (encode a))).bind decode? = some a := by
    intro a ha
    rw [hparse, Option.bind_some]
    exact hdecode a ha
  refine ⟨hread, fun document a hdocument ha => ?_, fun a b ha hb heq => ?_⟩
  · rw [hdocument, Option.map_some, Option.bind_some, hread a ha, Option.map_some]
  · have hsame : some a = some b := by
      rw [← hread a ha, ← hread b hb]
      exact congrArg (fun text => (Json.parseText text).bind decode?) heq
    exact Option.some.inj hsame

/-- Runs and pods survive in their documents, with and without blanks. -/
theorem documents_faithful {layout : Json → String}
    (h : layout = Json.compact ∨ layout = Json.pretty) :
    Faithful Run.Plain (fun r => layout r.toJson)
        (fun s => (Json.parseText s).bind Run.ofJson?) ∧
      Faithful (fun p : Pod => p.metadata.Plain) (fun p => layout p.toJson)
        (fun s => (Json.parseText s).bind Pod.ofJson?) := by
  have hparse : ∀ v, Json.parseText (layout v) = some v := by
    rcases h with rfl | rfl
    · exact Json.parseText_compact
    · exact Json.parseText_pretty
  exact ⟨faithful_of_parse hparse fun _ => Run.ofJson?_toJson,
    faithful_of_parse hparse fun _ => Pod.ofJson?_toJson⟩

/-- A run with a report, whose texts hold quotes, line breaks and other control characters. -/
theorem documents_faithful_report :
    let run : Run := {
      metadata := {
        name := "run-1", ns := "ops", uid := "1234", resourceVersion := "7"
        labels := .ofList [("team", "ö \"quoted\"")], created := some Timestamp.epoch }
      spec := { labelsFilter := "a && b\n", preflightSecretName := some "" }
      status := {
        phase := .finished, podName := some "cnf-job-run-1"
        report := some {
          verdict := .fail, summary := { total := 1, failed := 1 }
          results := [{
            name := "case", state := .failed, logs := "\t\x01", targets := some {} }] } } }
    (Json.parseText run.toJson.pretty).bind Run.ofJson? = some run := by
  refine (documents_faithful (.inr rfl)).1.read_write _ ⟨?_, ?_⟩
  · intro t ht
    cases ht
    exact ⟨by decide, by decide⟩
  · intro report hreport
    cases hreport
    constructor <;> decide

end CertRuns
