import CertRuns.Proofs.Json.Edits
import CertRuns.Proofs.Json.Grammar
import CertRuns.Report.Synthesis

/-!
# Parts of a claim file that nobody reads

The suite writes more into its claim file than a report needs. Members that no record knows may be
anywhere in it, with values of any kind and depth, and the members of objects may stand in any
order: the file that is read is the same, and so is the report.

* `CaseIdEdit` to `ClaimFileEdit` : edits of the parts of a claim file, each by those of its own
  parts; `CaseIdEdit.ofJson?` to `ClaimFileEdit.ofJson?` : their decoders do not notice them;
* `ClaimFile.mapSummaries` : a file with other summaries of its nodes; `synthesize_mapSummaries`;
* `unmodelled_parts` : what is read from a file whose unmodelled parts are edited.
-/

namespace CertRuns

open Json (Document ListEdit Members NoEdit Rearranged RecordEdit TableEdit free? integer? list?
  table? text?)

variable {j j' : Json}

/-! ## Test cases -/

def CaseIdEdit : Json → Json → Prop := RecordEdit ["id", "suite", "tags"] id fun _ => NoEdit

theorem CaseIdEdit.ofJson? (h : CaseIdEdit j j') : CaseId.ofJson? j = CaseId.ofJson? j' := by
  refine h.read_eq (by decide) fun m m' hm => ?_
  have plain (name : String) (hname : name ∈ ["id", "suite", "tags"]) :
      m.optional name text? "" = m'.optional name text? "" :=
    hm.optional name hname fun _ _ h => h.elim
  rw [plain "id" (by decide), plain "suite" (by decide), plain "tags" (by decide)]

/-- The edits inside the fields of a record of a test case. -/
def CaseRecordPart : String → Json → Json → Prop
  | "testID" => CaseIdEdit
  | "categoryClassification" => TableEdit NoEdit
  | _ => NoEdit

/-- An edit of the record of a test case. -/
def CaseRecordEdit : Json → Json → Prop :=
  RecordEdit ["state", "capturedTestOutput", "skipReason", "failureReason", "checkDetails",
    "startTime", "endTime", "duration", "testID", "categoryClassification"] id CaseRecordPart

theorem CaseRecordEdit.ofJson? (h : CaseRecordEdit j j') :
    CaseRecord.ofJson? j = CaseRecord.ofJson? j' := by
  refine h.read_eq (by decide) fun m m' hm => ?_
  have classification : ∀ v v', TableEdit NoEdit v v' → table? text? v = table? text? v' :=
    fun v v' h => h.table? fun _ _ h => h.elim
  rw [hm.optional "state" (by decide) fun _ _ h => False.elim h,
    hm.optional "capturedTestOutput" (by decide) fun _ _ h => False.elim h,
    hm.optional "skipReason" (by decide) fun _ _ h => False.elim h,
    hm.optional "failureReason" (by decide) fun _ _ h => False.elim h,
    hm.optional "checkDetails" (by decide) fun _ _ h => False.elim h,
    hm.optional "startTime" (by decide) fun _ _ h => False.elim h,
    hm.optional "endTime" (by decide) fun _ _ h => False.elim h,
    hm.optional "duration" (by decide) fun _ _ h => False.elim h,
    hm.optional "testID" (by decide) fun _ _ h => CaseIdEdit.ofJson? h,
    hm.optional "categoryClassification" (by decide) classification]

/-! ## Target of the suite -/

def VersionsEdit : Json → Json → Prop :=
  RecordEdit ["claimFormat", "ocp", "k8s", "certSuite"] Versions.canonical fun _ => NoEdit

theorem VersionsEdit.ofJson? (h : VersionsEdit j j') :
    Versions.ofJson? j = Versions.ofJson? j' := by
  refine h.read_eq (by decide) fun m m' hm => ?_
  have plain (name : String) (hname : name ∈ ["claimFormat", "ocp", "k8s", "certSuite"]) :
      m.optional name text? "" = m'.optional name text? "" :=
    hm.optional name hname fun _ _ h => h.elim
  rw [plain "claimFormat" (by decide), plain "ocp" (by decide), plain "k8s" (by decide),
    plain "certSuite" (by decide)]

/-- An edit of the name of an object under test. -/
def ClaimMetaEdit : Json → Json → Prop := RecordEdit ["name", "namespace"] id fun _ => NoEdit

theorem ClaimMetaEdit.ofJson? (h : ClaimMetaEdit j j') :
    ClaimMeta.ofJson? j = ClaimMeta.ofJson? j' := by
  refine h.read_eq (by decide) fun m m' hm => ?_
  rw [hm.optional "name" (by decide) fun _ _ h => h.elim,
    hm.optional "namespace" (by decide) fun _ _ h => h.elim]

def ClaimObjectEdit : Json → Json → Prop := RecordEdit ["metadata"] id fun _ => ClaimMetaEdit

theorem ClaimObjectEdit.ofJson? (h : ClaimObjectEdit j j') :
    ClaimObject.ofJson? j = ClaimObject.ofJson? j' := by
  refine h.read_eq (by decide) fun m m' hm => ?_
  rw [hm.optional "metadata" (by decide) fun _ _ h => ClaimMetaEdit.ofJson? h]

/-- An edit of a container of a pod under test. -/
def ClaimContainerEdit : Json → Json → Prop := RecordEdit ["name"] id fun _ => NoEdit

theorem ClaimContainerEdit.ofJson? (h : ClaimContainerEdit j j') :
    ClaimContainer.ofJson? j = ClaimContainer.ofJson? j' := by
  refine h.read_eq (by decide) fun m m' hm => ?_
  rw [hm.optional "name" (by decide) fun _ _ h => h.elim]

/-- An edit of the containers of a pod under test. -/
def ClaimPodSpecEdit : Json → Json → Prop :=
  RecordEdit ["containers"] id fun _ => ListEdit ClaimContainerEdit

theorem ClaimPodSpecEdit.ofJson? (h : ClaimPodSpecEdit j j') :
    ClaimPodSpec.ofJson? j = ClaimPodSpec.ofJson? j' := by
  refine h.read_eq (by decide) fun m m' hm => ?_
  have containers : ∀ v v', ListEdit ClaimContainerEdit v v' →
      list? ClaimContainer.ofJson? v = list? ClaimContainer.ofJson? v' :=
    fun v v' h => h.list? fun _ _ h => h.ofJson?
  rw [hm.optional "containers" (by decide) containers]

/-- The edits inside the fields of a pod under test. -/
def ClaimPodPart : String → Json → Json → Prop
  | "metadata" => ClaimMetaEdit
  | "spec" => ClaimPodSpecEdit
  | _ => NoEdit

def ClaimPodEdit : Json → Json → Prop := RecordEdit ["metadata", "spec"] id ClaimPodPart

theorem ClaimPodEdit.ofJson? (h : ClaimPodEdit j j') :
    ClaimPod.ofJson? j = ClaimPod.ofJson? j' := by
  refine h.read_eq (by decide) fun m m' hm => ?_
  rw [hm.optional "metadata" (by decide) fun _ _ h => ClaimMetaEdit.ofJson? h,
    hm.optional "spec" (by decide) fun _ _ h => ClaimPodSpecEdit.ofJson? h]

/-- The edits inside the fields of what the suite was pointed at. -/
def ConfigurationsPart : String → Json → Json → Prop
  | "pods" => ListEdit ClaimPodEdit
  | "csvs" => ListEdit ClaimMetaEdit
  | "namespaces" => NoEdit
  | _ => ListEdit ClaimObjectEdit

/-- An edit of what the suite was pointed at. -/
def ConfigurationsEdit : Json → Json → Prop :=
  RecordEdit ["namespaces", "pods", "deployments", "statefulSets", "csvs", "crds", "services",
    "helmChartReleases"] Configurations.canonical ConfigurationsPart

theorem ConfigurationsEdit.ofJson? (h : ConfigurationsEdit j j') :
    Configurations.ofJson? j = Configurations.ofJson? j' := by
  refine h.read_eq (by decide) fun m m' hm => ?_
  have pods : ∀ v v', ListEdit ClaimPodEdit v v' →
      list? ClaimPod.ofJson? v = list? ClaimPod.ofJson? v' :=
    fun v v' h => h.list? fun _ _ h => h.ofJson?
  have csvs : ∀ v v', ListEdit ClaimMetaEdit v v' →
      list? ClaimMeta.ofJson? v = list? ClaimMeta.ofJson? v' :=
    fun v v' h => h.list? fun _ _ h => h.ofJson?
  have objects : ∀ v v', ListEdit ClaimObjectEdit v v' →
      list? ClaimObject.ofJson? v = list? ClaimObject.ofJson? v' :=
    fun v v' h => h.list? fun _ _ h => h.ofJson?
  rw [hm.optional "namespaces" (by decide) fun _ _ h => False.elim h,
    hm.optional "pods" (by decide) pods, hm.optional "deployments" (by decide) objects,
    hm.optional "statefulSets" (by decide) objects, hm.optional "csvs" (by decide) csvs,
    hm.optional "crds" (by decide) objects, hm.optional "services" (by decide) objects,
    hm.optional "helmChartReleases" (by decide) objects]

/-! ## Summaries of nodes -/

def Nodes.mapSummary (keep : Json → Json) (n : Nodes) : Nodes := ⟨n.summary.mapValues keep⟩

/-- The claim with other summaries of its nodes. -/
def Claim.mapSummaries (keep : Json → Json) (c : Claim) : Claim :=
  { c with nodes := c.nodes.mapSummary keep }

/-- The file with other summaries of its nodes. -/
def ClaimFile.mapSummaries (keep : Json → Json) (file : ClaimFile) : ClaimFile :=
  ⟨file.claim.mapSummaries keep⟩

theorem ClaimFile.mapSummaries_id (file : ClaimFile) : file.mapSummaries id = file := by
  rw [mapSummaries, Claim.mapSummaries, Nodes.mapSummary, Table.mapValues_id]

theorem synthesize_mapSummaries (keep : Json → Json) (file : ClaimFile) (options : ReportOptions) :
    synthesize (file.mapSummaries keep) options = synthesize file options := by
  simp only [synthesize, inventory, ClaimFile.mapSummaries, Claim.mapSummaries, Nodes.mapSummary,
    Table.keys_mapValues]

section Documents
variable {Summary : Json → Json → Prop} {keep : Json → Json}

/-- The edits are not noticed in summaries of nodes once these are kept in some way. -/
def Unnoticed (Summary : Json → Json → Prop) (keep : Json → Json) : Prop :=
  ∀ v v', Summary v v' →
    (free? Nodes.summaryDepth v).map keep = (free? Nodes.summaryDepth v').map keep

/-- An edit of the nodes, by edits of their summaries. -/
def NodesEdit (Summary : Json → Json → Prop) : Json → Json → Prop :=
  RecordEdit ["nodeSummary"] id fun _ => TableEdit Summary

theorem Nodes.map_ofJson? (j : Json) : (ofJson? j).map (mapSummary keep) =
    (j.members? ["nodeSummary"]).bind fun m => (m.optional "nodeSummary"
      (table? fun v => (free? summaryDepth v).map keep) .empty).map Nodes.mk := by
  have hsummary (m : Members) : m.optional "nodeSummary"
      (table? fun v => (free? summaryDepth v).map keep) .empty =
        (m.optional "nodeSummary" (table? (free? summaryDepth)) .empty).map
          (Table.mapValues keep) := by
    simp only [Members.map_optional, Json.table?_map]
    rfl
  simp only [hsummary, ofJson?]
  cases j.members? ["nodeSummary"] with
  | none => rfl
  | some m =>
    simp only [Option.bind_eq_bind, Option.bind_some]
    cases m.optional "nodeSummary" (table? (free? summaryDepth)) .empty <;> rfl

theorem NodesEdit.ofJson? (hkeep : Unnoticed Summary keep) (h : NodesEdit Summary j j') :
    (Nodes.ofJson? j).map (Nodes.mapSummary keep) =
      (Nodes.ofJson? j').map (Nodes.mapSummary keep) := by
  rw [Nodes.map_ofJson?, Nodes.map_ofJson?]
  refine h.read_eq (by decide) fun m m' hm => ?_
  rw [hm.optional "nodeSummary" (by decide) fun _ _ h => h.table? hkeep]

/-! ## Documents -/

/-- The edits inside the fields of a claim, with those inside summaries of nodes. -/
def ClaimPart (Summary : Json → Json → Prop) : String → Json → Json → Prop
  | "results" => TableEdit CaseRecordEdit
  | "versions" => VersionsEdit
  | "configurations" => ConfigurationsEdit
  | _ => NodesEdit Summary

def ClaimEdit (Summary : Json → Json → Prop) : Json → Json → Prop :=
  RecordEdit ["results", "versions", "configurations", "nodes"] id (ClaimPart Summary)

theorem Claim.map_ofJson? (j : Json) : (ofJson? j).map (mapSummaries keep) =
    (j.members? ["results", "versions", "configurations", "nodes"]).bind fun m => do
      return {
        results := ← m.optional "results" (table? CaseRecord.ofJson?) .empty
        versions := ← m.optional "versions" Versions.ofJson? {}
        configurations := ← m.optional "configurations" Configurations.ofJson? {}
        nodes := ← m.optional "nodes" (fun v => (Nodes.ofJson? v).map (Nodes.mapSummary keep)) {} }
    := by
  have hnodes (m : Members) :
      m.optional "nodes" (fun v => (Nodes.ofJson? v).map (Nodes.mapSummary keep)) {} =
        (m.optional "nodes" Nodes.ofJson? {}).map (Nodes.mapSummary keep) :=
    (m.map_optional "nodes" Nodes.ofJson? {} (Nodes.mapSummary keep)).symm
  simp only [hnodes, ofJson?]
  cases j.members? ["results", "versions", "configurations", "nodes"] with
  | none => rfl
  | some m =>
    simp only [Option.bind_eq_bind, Option.bind_some]
    cases m.optional "results" (table? CaseRecord.ofJson?) .empty with
    | none => rfl
    | some results =>
      cases m.optional "versions" Versions.ofJson? {} with
      | none => rfl
      | some versions =>
        cases m.optional "configurations" Configurations.ofJson? {} with
        | none => rfl
        | some configurations => cases m.optional "nodes" Nodes.ofJson? {} <;> rfl

theorem ClaimEdit.ofJson? (hkeep : Unnoticed Summary keep) (h : ClaimEdit Summary j j') :
    (Claim.ofJson? j).map (Claim.mapSummaries keep) =
      (Claim.ofJson? j').map (Claim.mapSummaries keep) := by
  have results : ∀ v v', TableEdit CaseRecordEdit v v' →
      table? CaseRecord.ofJson? v = table? CaseRecord.ofJson? v' :=
    fun v v' h => h.table? fun _ _ h => h.ofJson?
  rw [Claim.map_ofJson?, Claim.map_ofJson?]
  refine h.read_eq (by decide) fun m m' hm => ?_
  rw [hm.optional "results" (by decide) results,
    hm.optional "versions" (by decide) fun _ _ h => VersionsEdit.ofJson? h,
    hm.optional "configurations" (by decide) fun _ _ h => ConfigurationsEdit.ofJson? h,
    hm.optional "nodes" (by decide) fun _ _ h => NodesEdit.ofJson? hkeep h]

/-- An edit of a claim file, with edits inside summaries of nodes. -/
def ClaimFileEdit (Summary : Json → Json → Prop) : Json → Json → Prop :=
  RecordEdit ["claim"] id fun _ => ClaimEdit Summary

theorem ClaimFile.map_ofJson? (j : Json) : (ofJson? j).map (mapSummaries keep) =
    (j.members? ["claim"]).bind fun m => (m.required "claim"
      fun v => (Claim.ofJson? v).map (Claim.mapSummaries keep)).map ClaimFile.mk := by
  simp only [← Members.map_required, ofJson?]
  cases j.members? ["claim"] with
  | none => rfl
  | some m =>
    simp only [Option.bind_eq_bind, Option.bind_some]
    cases m.required "claim" Claim.ofJson? <;> rfl

theorem ClaimFileEdit.ofJson? (hkeep : Unnoticed Summary keep)
    (h : ClaimFileEdit Summary j j') :
    (ClaimFile.ofJson? j).map (ClaimFile.mapSummaries keep) =
      (ClaimFile.ofJson? j').map (ClaimFile.mapSummaries keep) := by
  rw [ClaimFile.map_ofJson?, ClaimFile.map_ofJson?]
  refine h.read_eq (by decide) fun m m' hm => ?_
  rw [hm.required "claim" (by decide) fun _ _ h => ClaimEdit.ofJson? hkeep h]

/-- No matter how many edits are made, the file that is read is the same. -/
theorem ofJson?_of_edits (hkeep : Unnoticed Summary keep)
    (h : Relation.ReflTransGen (ClaimFileEdit Summary) j j') :
    (ClaimFile.ofJson? j).map (ClaimFile.mapSummaries keep) =
      (ClaimFile.ofJson? j').map (ClaimFile.mapSummaries keep) := by
  induction h with
  | refl => rfl
  | tail _ hedit ih => exact ih.trans (hedit.ofJson? hkeep)

theorem ofBytes?_of_document {b : ByteArray} (h : Document (Text.symbols b) j) :
    ClaimFile.ofBytes? b = ClaimFile.ofJson? j := by
  rw [ClaimFile.ofBytes?, Json.parseBytes, Json.parse_eq_some_iff.mpr h]
  rfl

theorem ofBytes?_of_edits (hkeep : Unnoticed Summary keep) {b b' : ByteArray} {file : ClaimFile}
    (hdoc : Document (Text.symbols b) j) (hread : ClaimFile.ofBytes? b = some file)
    (h : Relation.ReflTransGen (ClaimFileEdit Summary) j j')
    (hdoc' : Document (Text.symbols b') j') : ∃ file', ClaimFile.ofBytes? b' = some file' ∧
      file'.mapSummaries keep = file.mapSummaries keep := by
  have heq := ofJson?_of_edits hkeep h
  rw [← ofBytes?_of_document hdoc, ← ofBytes?_of_document hdoc', hread, Option.map_some] at heq
  obtain ⟨file', hread', hsame⟩ := Option.map_eq_some_iff.mp heq.symm
  exact ⟨file', hread', hsame⟩

end Documents

theorem unnoticed_noEdit : Unnoticed NoEdit id := fun _ _ h => h.elim

theorem unnoticed_rearranged : Unnoticed Rearranged Json.kept := fun _ _ h => h.free? _

/-- If a claim file can be read, then so can every file that has members more that no record knows,
or fewer, with any values, and members with different names in other orders. The file that is read
is the same. If members are put in another order inside the summaries of nodes, which are kept
unread, then these are kept the same as maps; and the report is the same in any case. -/
theorem unmodelled_parts {b : ByteArray} {file : ClaimFile} (hdoc : Document (Text.symbols b) j)
    (hread : ClaimFile.ofBytes? b = some file) :
    (∀ b' j', Relation.ReflTransGen (ClaimFileEdit NoEdit) j j' →
      Document (Text.symbols b') j' → ClaimFile.ofBytes? b' = some file) ∧
    ∀ b' j', Relation.ReflTransGen (ClaimFileEdit Rearranged) j j' →
      Document (Text.symbols b') j' → ∃ file', ClaimFile.ofBytes? b' = some file' ∧
        file'.mapSummaries Json.kept = file.mapSummaries Json.kept ∧
        ∀ options, synthesize file' options = synthesize file options := by
  constructor
  · intro b' j' hedits hdoc'
    obtain ⟨file', hread', hsame⟩ := ofBytes?_of_edits unnoticed_noEdit hdoc hread hedits hdoc'
    rw [ClaimFile.mapSummaries_id, ClaimFile.mapSummaries_id] at hsame
    rw [hread', hsame]
  · intro b' j' hedits hdoc'
    obtain ⟨file', hread', hsame⟩ := ofBytes?_of_edits unnoticed_rearranged hdoc hread hedits hdoc'
    refine ⟨file', hread', hsame, fun options => ?_⟩
    rw [← synthesize_mapSummaries Json.kept file', hsame, synthesize_mapSummaries]

/-- A claim file with one case and the summary of one node. -/
def sampleClaim (result summary : Json) : Json :=
  .record [("claim", .record [("results", .record [("net-admin", result)]),
    ("nodes", .record [("nodeSummary", .record [("worker-0", summary)])])])]

def failedCase : Json := .record [("state", .ofText "failed"), ("duration", .ofNat 12)]

/-- The same case with its fields in the other order and a member that nobody knows, which has half
a surrogate pair for a name inside and a number that no double holds. -/
def futureCase : Json :=
  .object [(some "duration", .ofNat 12),
    (some "future", .array [.object [(none, .number ⟨false, 1, [], some 999⟩)]]),
    (some "state", .ofText "failed")]

def nodeSummary : Json := .record [("arch", .ofText "arm"), ("cpus", .ofNat 4)]

/-- The same summary with its members in the other order. -/
def turnedSummary : Json := .record [("cpus", .ofNat 4), ("arch", .ofText "arm")]

theorem caseRecordEdit_future :
    Relation.ReflTransGen CaseRecordEdit failedCase futureCase := by
  have hswaps := Json.swaps_of_perm (List.Perm.swap (some "duration", Json.ofNat 12)
    (some "state", Json.ofText "failed") []) (by decide)
  have hturned := hswaps.lift Json.object fun _ _ h =>
    (RecordEdit.swap h : CaseRecordEdit (.object _) (.object _))
  exact hturned.tail (RecordEdit.insert [_] [_] (by decide) _)

theorem claimFileEdit_result {Summary : Json → Json → Prop} {result result' : Json}
    (h : CaseRecordEdit result result') (summary : Json) :
    ClaimFileEdit Summary (sampleClaim result summary) (sampleClaim result' summary) :=
  RecordEdit.member [] [] (RecordEdit.member [] [_] (TableEdit.entry [] [] h))

theorem document_compact {j : Json} (h : Text.symbols j.compact.toUTF8 =
    Json.written Json.Piece.compactChars (Json.pieces 0 j)) :
    Document (Text.symbols j.compact.toUTF8) j := by
  rw [h, ← Json.parse_eq_some_iff]
  exact Json.parse_written Json.layout_compact j 0

/-- The file with the unknown member is read as the file without it, and the one with the other
summary is told the same. -/
theorem unmodelled_parts_future :
    let b := (sampleClaim failedCase nodeSummary).compact.toUTF8
    let extended := (sampleClaim futureCase nodeSummary).compact.toUTF8
    let turned := (sampleClaim futureCase turnedSummary).compact.toUTF8
    ∃ file file', ClaimFile.ofBytes? b = some file ∧ ClaimFile.ofBytes? extended = some file ∧
      ClaimFile.ofBytes? turned = some file' ∧ (synthesize file {}).verdict = .fail ∧
      ∀ options, synthesize file' options = synthesize file options := by
  intro b extended turned
  have hdoc : Document (Text.symbols b) (sampleClaim failedCase nodeSummary) :=
    document_compact (by decide +kernel)
  have hextended : Document (Text.symbols extended) (sampleClaim futureCase nodeSummary) :=
    document_compact (by decide +kernel)
  have hturned : Document (Text.symbols turned) (sampleClaim futureCase turnedSummary) :=
    document_compact (by decide +kernel)
  have hsome : ((ClaimFile.ofBytes? b).map fun file => (synthesize file {}).verdict) =
      some .fail := by decide +kernel
  obtain ⟨file, hread, hverdict⟩ := Option.map_eq_some_iff.mp hsome
  obtain ⟨hsame, hreport⟩ := unmodelled_parts hdoc hread
  have hfuture (Summary : Json → Json → Prop) :
      Relation.ReflTransGen (ClaimFileEdit Summary) (sampleClaim failedCase nodeSummary)
        (sampleClaim futureCase nodeSummary) :=
    caseRecordEdit_future.lift (sampleClaim · nodeSummary) fun _ _ h => claimFileEdit_result h _
  have hsummary : ClaimFileEdit Rearranged (sampleClaim futureCase nodeSummary)
      (sampleClaim futureCase turnedSummary) :=
    RecordEdit.member [] [] (RecordEdit.member [_] [] (RecordEdit.member [] []
      (TableEdit.entry [] [] (.swap (.mk [] [] (by decide))))))
  obtain ⟨file', hread', -, htold⟩ := hreport _ _ ((hfuture Rearranged).tail hsummary) hturned
  exact ⟨file, file', hread, hsame _ _ (hfuture NoEdit) hextended, hread', hverdict, htold⟩

end CertRuns
