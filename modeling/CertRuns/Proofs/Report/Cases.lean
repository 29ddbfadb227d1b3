import CertRuns.Proofs.Control.Views
import CertRuns.Proofs.Report.Verdict

/-!
# What a report tells about each case

A report counts its cases and lists them, and loses none on the way: a state that nobody knows is
counted as an error. Every case is told by its own record. What a run asks to be told, and whether
the objects of a case can be read, changes neither the counts nor anything about the other cases.

* `CaseState.Named` : the state that a text names; `Summary.number` : how many cases have a state;
* `counts_complete` : the counters agree with the cases, and the cases with the results;
* `Report.about` : what a report tells under a name; `CaseResult.Tells` : what it has to tell;
* `about_eq` : it depends on the record under this name only;
* `Report.withTargets`, `synthesize_details` : a report in which one case has other details;
* `cases_independent` : these laws together.
-/

namespace CertRuns

/-! ## States -/

/-- It is the state with this name, and an error if no state has it. -/
def CaseState.Named (text : String) (state : CaseState) : Prop :=
  state.text = text ∨ state = .error ∧ ∀ other : CaseState, other.text ≠ text

theorem caseState_named (record : CaseRecord) : (caseState record).Named record.state := by
  unfold caseState CaseState.ofText? CaseState.Named
  split_ifs with hp hs hf he
  · exact .inl hp.symm
  · exact .inl hs.symm
  · exact .inl hf.symm
  · exact .inl he.symm
  · refine .inr ⟨rfl, fun other h => ?_⟩
    cases other
    · exact hp h.symm
    · exact hs h.symm
    · exact hf h.symm
    · exact he h.symm

/-- How many cases ended in a state. -/
def Summary.number (s : Summary) : CaseState → Nat
  | .passed => s.passed
  | .skipped => s.skipped
  | .failed => s.failed
  | .error => s.errored

theorem Summary.number_of (states : List CaseState) (state : CaseState) :
    (of states).number state = states.count state := by
  cases state <;> rfl

/-- No case is counted twice, and none is left out. -/
theorem Summary.total_of (states : List CaseState) :
    (of states).total = (of states).passed + (of states).skipped + (of states).failed +
      (of states).errored := by
  unfold of
  induction states with
  | nil => rfl
  | cons s states ih =>
    simp only [List.length_cons, List.count_cons] at ih ⊢
    cases s <;> simp <;> omega

/-! ## All cases -/

section
variable {results : Table String CaseRecord} {options : ReportOptions} {name : String}
  {record : CaseRecord}

theorem map_name_summarize :
    (summarize results options).2.map (·.name) = results.keys := List.map_map ..

theorem map_state_summarize :
    (summarize results options).2.map (·.state) = results.values.map caseState := by
  rw [Table.values, List.map_map, summarize, List.map_map]
  rfl

theorem mem_summarize (h : results.get? name = some record) :
    caseResult options name record ∈ (summarize results options).2 :=
  List.mem_map.mpr ⟨(name, record), (Table.mem_entries _ _).mpr h, rfl⟩

/-- The counters, the cases and the results agree: there are as many of each, the cases are those of
the results in the order of their names, every counter is the number of cases with its state, and a
case has the state that its record names. -/
theorem counts_complete (results : Table String CaseRecord) (options : ReportOptions) :
    let summary := (summarize results options).1
    let cases := (summarize results options).2
    summary.total = results.size ∧
      summary.total = summary.passed + summary.skipped + summary.failed + summary.errored ∧
      summary.total = cases.length ∧
      cases.map (·.name) = results.keys ∧ (cases.map (·.name)).Pairwise (· < ·) ∧
      (∀ state, summary.number state = (cases.map (·.state)).count state) ∧
      ∀ name record, results.get? name = some record →
        ∃ case ∈ cases, case.name = name ∧ case.state.Named record.state := by
  intro summary cases
  have hsummary : summary = .of (results.values.map caseState) := summarize_fst results options
  have hstates : cases.map (·.state) = results.values.map caseState := map_state_summarize
  have hnames : cases.map (·.name) = results.keys := map_name_summarize
  have htotal : summary.total = results.size := by
    rw [hsummary]
    simp [Summary.of, Table.values, Table.size]
  refine ⟨htotal, ?_, ?_, hnames, ?_, fun state => ?_, fun name record h => ?_⟩
  · rw [hsummary]
    exact Summary.total_of _
  · rw [htotal]
    exact (List.length_map _).symm
  · rw [hnames]
    exact List.pairwise_map.mpr (results.ascending.imp compare_string_eq_lt.mp)
  · rw [hsummary, Summary.number_of, hstates]
  · exact ⟨_, mem_summarize h, rfl, caseState_named record⟩

end

/-- Four cases, one of them with a state that nobody knows. -/
theorem counts_complete_unknown :
    let results : Table String CaseRecord := .ofList [("c", { state := "failed" }),
      ("b", { state := "PASSED" }), ("a", { state := "skipped" }), ("d", { state := "error" })]
    results.get? "b" = some { state := "PASSED" } ∧
      (summarize results {}).1 = { total := 4, skipped := 1, failed := 1, errored := 2 } ∧
      ∃ case ∈ (summarize results {}).2, case.name = "b" ∧ case.state.Named "PASSED" := by
  intro results
  have hrecord : results.get? "b" = some { state := "PASSED" } := by rfl
  exact ⟨hrecord, by rfl, (counts_complete results {}).2.2.2.2.2.2 "b" _ hrecord⟩

/-! ## Single cases -/

/-- What a report tells under a name. -/
def Report.about (r : Report) (name : String) : List CaseResult := r.results.filter (·.name = name)

/-- What has to be told about a case with a record. -/
structure CaseResult.Tells (options : ReportOptions) (name : String) (record : CaseRecord)
    (case : CaseResult) : Prop where
  name_eq : case.name = name
  state : case.state.Named record.state
  /-- The objects are told if the case failed, or passed and passed cases are to tell theirs, and
  the details list them. -/
  targets : case.targets.isSome = true ↔
    (case.state = .failed ∨ case.state = .passed ∧ options.compliantTargets = true) ∧
      Text.allBlank record.checkDetails = false ∧
      ∃ targets, decodeCheckDetails record.checkDetails = .ok targets
  decoded : ∀ targets, case.targets = some targets →
    decodeCheckDetails record.checkDetails = .ok targets
  logs : case.logs =
    if case.state = .failed ∨ options.allLogs = true then record.capturedOutput else ""
  reason : case.reason =
    if case.state = .skipped then record.skipReason
    else if case.state = .failed then record.failureReason
    else ""

theorem Except.toOption_eq_some {ε α : Type} {x : Except ε α} {a : α} :
    x.toOption = some a ↔ x = .ok a := by
  cases x <;> simp [Except.toOption]

theorem caseTargets?_eq_some {record : CaseRecord} {targets : CaseTargets} :
    caseTargets? record = some targets ↔ Text.allBlank record.checkDetails = false ∧
      decodeCheckDetails record.checkDetails = .ok targets := by
  unfold caseTargets?
  cases h : Text.allBlank record.checkDetails with
  | true => simp
  | false => simp [Except.toOption_eq_some]

theorem wantsTargets_iff {options : ReportOptions} {state : CaseState} :
    wantsTargets options state = true ↔
      state = .failed ∨ state = .passed ∧ options.compliantTargets = true := by
  cases state <;> simp [wantsTargets]

theorem targets_caseResult {options : ReportOptions} {name : String} {record : CaseRecord}
    {targets : CaseTargets} : (caseResult options name record).targets = some targets ↔
      wantsTargets options (caseState record) = true ∧ Text.allBlank record.checkDetails = false ∧
        decodeCheckDetails record.checkDetails = .ok targets := by
  show (if wantsTargets options (caseState record) then caseTargets? record else none) = _ ↔ _
  split_ifs with hwants
  · simp [hwants, caseTargets?_eq_some]
  · simp [hwants]

theorem caseResult_tells (options : ReportOptions) (name : String) (record : CaseRecord) :
    (caseResult options name record).Tells options name record where
  name_eq := rfl
  state := caseState_named record
  targets := by
    rw [Option.isSome_iff_exists]
    simp only [targets_caseResult, exists_and_left, wantsTargets_iff]
    rfl
  decoded := fun targets h => (targets_caseResult.mp h).2.2
  logs := rfl
  reason := by
    unfold caseResult
    cases caseState record <;> rfl

/-! ## Reports -/

theorem synthesize_eq (claim : Claim) (options : ReportOptions) :
    synthesize ⟨claim⟩ options = {
      verdict := .ofSummary (.of (claim.results.values.map caseState))
      clusterVersion := claim.versions.cluster
      suiteVersion := claim.versions.suite
      inventory := inventory claim
      summary := .of (claim.results.values.map caseState)
      results := claim.results.entries.map fun e => caseResult options e.1 e.2 } := by
  rw [← summarize_fst claim.results options]
  rfl

theorem about_eq (claim : Claim) (options : ReportOptions) (name : String) :
    (synthesize ⟨claim⟩ options).about name =
      ((claim.results.get? name).map (caseResult options name)).toList := by
  rw [Report.about, synthesize_eq, List.filter_map]
  have hfilter := Table.filter_key claim.results name
  have hname : (fun case : CaseResult => decide (case.name = name)) ∘
        (fun e : String × CaseRecord => caseResult options e.1 e.2) =
      fun e => decide (e.1 = name) := rfl
  rw [hname, hfilter]
  cases claim.results.get? name <;> rfl

/-- A report in which the objects of one case are told otherwise. -/
def Report.withTargets (r : Report) (name : String) (targets : Option CaseTargets) : Report :=
  { r with results := r.results.map fun case =>
      if case.name = name then { case with targets } else case }

/-- The claim in which one case has other details. -/
def Claim.withDetails (claim : Claim) (name details : String) : Claim :=
  { claim with results := claim.results.adjust name fun r => { r with checkDetails := details } }

theorem synthesize_details (claim : Claim) (name details : String) (options : ReportOptions) :
    synthesize ⟨claim.withDetails name details⟩ options =
      (synthesize ⟨claim⟩ options).withTargets name ((claim.results.get? name).bind fun r =>
        (caseResult options name { r with checkDetails := details }).targets) := by
  have hentries : (claim.withDetails name details).results.entries = claim.results.entries.map
      fun e => if e.1 = name then (e.1, { e.2 with checkDetails := details }) else e :=
    Table.entries_adjust claim.results name _
  have hstates : (claim.withDetails name details).results.values.map caseState =
      claim.results.values.map caseState := by
    unfold Table.values
    rw [hentries, List.map_map, List.map_map, List.map_map]
    refine List.map_congr_left fun e _ => ?_
    simp only [Function.comp_apply]
    split <;> rfl
  have hcases : (claim.withDetails name details).results.entries.map
        (fun e => caseResult options e.1 e.2) =
      (claim.results.entries.map fun e => caseResult options e.1 e.2).map fun case =>
        if case.name = name then { case with targets := (claim.results.get? name).bind fun r =>
          (caseResult options name { r with checkDetails := details }).targets }
        else case := by
    rw [hentries, List.map_map, List.map_map]
    refine List.map_congr_left fun e he => ?_
    have hname : (caseResult options e.1 e.2).name = e.1 := rfl
    simp only [Function.comp_apply, hname]
    split
    · rename_i hk
      rw [← hk, (Table.mem_entries _ e).mp he]
      rfl
    · rfl
  rw [synthesize_eq, synthesize_eq, hstates, hcases]
  rfl

/-- Details that cannot be read list no objects. -/
theorem targets_of_undecodable {details : String} {e : CheckDetailsError}
    (h : decodeCheckDetails details = .error e) (options : ReportOptions) (name : String)
    (record : CaseRecord) :
    (caseResult options name { record with checkDetails := details }).targets = none := by
  refine Option.eq_none_iff_forall_not_mem.mpr fun targets hmem => ?_
  have hdecoded := (targets_caseResult.mp hmem).2.2
  rw [h] at hdecoded
  cases hdecoded

/-- What is told about a case that has nothing to do with how much is to be told. -/
def CaseResult.outline (case : CaseResult) : String × CaseState × String :=
  (case.name, case.state, case.reason)

/-- What a report tells under a name depends on the record there only, and for a record it is the
one case that this record tells, whatever the other records are. Two reports on one claim that are
to tell more and less differ in the logs and the objects of cases only, and other details of a case
change its objects only, so that there are none if the details cannot be read. -/
theorem cases_independent (claim : Claim) (options : ReportOptions) :
    (∀ (name : String) (other : Claim), other.results.get? name = claim.results.get? name →
      (synthesize ⟨other⟩ options).about name = (synthesize ⟨claim⟩ options).about name) ∧
    (∀ name record, claim.results.get? name = some record →
      ∃ case, (synthesize ⟨claim⟩ options).about name = [case] ∧ case.Tells options name record) ∧
    (∀ options', let report := synthesize ⟨claim⟩ options
      let report' := synthesize ⟨claim⟩ options'
      report' = { report with results := report'.results } ∧
        report'.results.map CaseResult.outline = report.results.map CaseResult.outline) ∧
    ∀ name details, ∃ targets, synthesize ⟨claim.withDetails name details⟩ options =
        (synthesize ⟨claim⟩ options).withTargets name targets ∧
      ∀ e, decodeCheckDetails details = .error e → targets = none := by
  refine ⟨fun name other h => ?_, fun name record h => ?_, fun options' => ⟨?_, ?_⟩,
    fun name details => ⟨_, synthesize_details claim name details options, fun e he => ?_⟩⟩
  · rw [about_eq, about_eq, h]
  · rw [about_eq, h]
    exact ⟨_, rfl, caseResult_tells options name record⟩
  · simp only [synthesize_eq]
  · simp only [synthesize_eq, List.map_map]
    rfl
  · simp only [targets_of_undecodable he]
    cases claim.results.get? name <;> rfl

/-- A failed case with a list of objects, and a passed one whose details are cut off. -/
def tornClaim : Claim where
  results := .ofList [("b", { state := "passed", checkDetails := "\x7b" }),
    ("a", { state := "failed", failureReason := "check failed", checkDetails := "\x7b\x7d" })]

/-- The failed case is told the same if the other one is left out, and tells no objects if its own
details are cut off too. -/
theorem cases_independent_torn :
    let alone : Claim := { results := tornClaim.results.erase "b" }
    let record := { state := "failed", failureReason := "check failed", checkDetails := "\x7b\x7d" }
    alone.results.get? "a" = tornClaim.results.get? "a" ∧
      tornClaim.results.get? "a" = some record ∧
      decodeCheckDetails "\x7b" = .error .undecodable ∧
      (synthesize ⟨alone⟩ {}).about "a" = (synthesize ⟨tornClaim⟩ {}).about "a" ∧
      (∃ case, (synthesize ⟨tornClaim⟩ {}).about "a" = [case] ∧ case.Tells {} "a" record) ∧
      synthesize ⟨tornClaim.withDetails "a" "\x7b"⟩ {} =
        (synthesize ⟨tornClaim⟩ {}).withTargets "a" none := by
  intro alone record
  have hsame : alone.results.get? "a" = tornClaim.results.get? "a" := by rfl
  have hrecord : tornClaim.results.get? "a" = some record := by rfl
  have htorn : decodeCheckDetails "\x7b" = .error .undecodable := by decide +kernel
  obtain ⟨hothers, htells, _, hdetails⟩ := cases_independent tornClaim {}
  obtain ⟨targets, hreport, hnone⟩ := hdetails "a" "\x7b"
  refine ⟨hsame, hrecord, htorn, hothers "a" alone hsame, htells "a" record hrecord, ?_⟩
  rw [hreport, hnone _ htorn]

end CertRuns
