import CertRuns.Proofs.Table
import CertRuns.Report.Synthesis
import Mathlib.Order.Lattice
import Mathlib.Order.Nat

/-!
# The verdict of a report is the worst of its cases

The verdict is worked out from four counters. It says as much as the cases say one by one: each of
them has a verdict of its own, and that of the report is the greatest of these in the order
`skip < pass < fail < error`. So the reports on two parts of a run tell the verdict of the whole.

* `CaseRecord.verdict` : what the state of a single case stands for;
* `Verdict.worst` : the greatest of some verdicts, `skip` if there are none;
* `Summary.of`, `summarize_fst` : the counters as counts of states;
* `ofSummary_of` : the verdict from the counters is the worst of the states;
* `synthesize_verdict` : the law for reports, for unions of results and for one more case.
-/

namespace CertRuns

/-! ## The order of verdicts -/

namespace Verdict

def rank : Verdict → Nat
  | skip => 0
  | pass => 1
  | fail => 2
  | error => 3

theorem rank_injective : Function.Injective rank := by
  intro v w h
  cases v <;> cases w <;> first | rfl | exact absurd h (by decide)

instance : LinearOrder Verdict := LinearOrder.lift' rank rank_injective

theorem skip_le (v : Verdict) : skip ≤ v := Nat.zero_le (rank v)

/-- The worst of some verdicts; without any of them nothing was tested. -/
def worst (l : List Verdict) : Verdict := l.foldr max skip

theorem worst_append (l l' : List Verdict) : worst (l ++ l') = max (worst l) (worst l') := by
  induction l with
  | nil => exact (max_eq_right (skip_le _)).symm
  | cons v l ih =>
    show max v (worst (l ++ l')) = max (max v (worst l)) (worst l')
    rw [ih, max_assoc]

end Verdict

/-- What the state of a case stands for; a state that nobody knows is an error. -/
def CaseRecord.verdict (r : CaseRecord) : Verdict :=
  if r.state = "skipped" then .skip
  else if r.state = "passed" then .pass
  else if r.state = "failed" then .fail
  else .error

/-- What a state stands for. -/
def CaseState.verdict : CaseState → Verdict
  | passed => .pass
  | skipped => .skip
  | failed => .fail
  | error => .error

theorem verdict_caseState (r : CaseRecord) : (caseState r).verdict = r.verdict := by
  unfold caseState CaseState.ofText? CaseRecord.verdict
  by_cases hskipped : r.state = "skipped"
  · rw [hskipped]
    rfl
  · rw [if_neg hskipped, if_neg hskipped]
    split_ifs <;> rfl

/-! ## Counters -/

namespace Summary

def of (states : List CaseState) : Summary where
  total := states.length
  passed := states.count .passed
  skipped := states.count .skipped
  failed := states.count .failed
  errored := states.count .error

theorem count_of (states : List CaseState) (s : CaseState) :
    (of states).count s = of (states ++ [s]) := by
  cases s <;> simp [of, count]

theorem foldl_count (states before : List CaseState) :
    states.foldl count (of before) = of (before ++ states) := by
  induction states generalizing before with
  | nil => rw [List.append_nil, List.foldl_nil]
  | cons s states ih => rw [List.foldl_cons, count_of, ih, List.append_assoc, List.singleton_append]

theorem of_perm {states states' : List CaseState} (h : states.Perm states') :
    of states = of states' := by
  unfold of
  simp only [h.length_eq, h.count_eq]

end Summary

theorem summarize_fst (results : Table String CaseRecord) (options : ReportOptions) :
    (summarize results options).1 = .of (results.values.map caseState) := by
  have h := Summary.foldl_count (results.values.map caseState) []
  rw [List.nil_append, Table.values, List.map_map, List.foldl_map] at h
  rw [Table.values, List.map_map]
  exact h

namespace Verdict

/-- One more case: the errors and failures grow, and if it was not skipped, then not all are. -/
theorem ofSummary_cons (s : CaseState) (states : List CaseState) :
    ofSummary (.of (s :: states)) = max s.verdict (ofSummary (.of states)) := by
  have hle : states.count .skipped ≤ states.length := List.count_le_length
  unfold ofSummary Summary.of
  cases s <;>
    simp only [CaseState.verdict, List.length_cons, List.count_cons, beq_iff_eq, reduceCtorEq,
      if_true, if_false, Nat.add_zero, Nat.add_right_cancel_iff] <;>
    split_ifs <;> first | rfl | omega

theorem ofSummary_of (states : List CaseState) :
    ofSummary (.of states) = worst (states.map CaseState.verdict) := by
  induction states with
  | nil => rfl
  | cons s states ih =>
    rw [ofSummary_cons, ih]
    rfl

end Verdict

/-! ## Reports -/

theorem verdict_synthesize (claim : Claim) (options : ReportOptions) :
    (synthesize ⟨claim⟩ options).verdict =
      .worst (claim.results.values.map CaseRecord.verdict) := by
  show Verdict.ofSummary (summarize claim.results options).1 = _
  rw [summarize_fst, Verdict.ofSummary_of, List.map_map]
  congr 2
  funext r
  exact verdict_caseState r

/-- The worst verdict does not depend on the order in which the cases are listed. -/
theorem worst_verdict_perm {l l' : List (String × CaseRecord)} (h : l.Perm l') :
    Verdict.worst (l.map fun e => e.2.verdict) = .worst (l'.map fun e => e.2.verdict) := by
  have hstates (l : List (String × CaseRecord)) : (l.map fun e => e.2.verdict) =
      (l.map fun e => caseState e.2).map CaseState.verdict := by
    rw [List.map_map]
    congr 1
    funext e
    exact (verdict_caseState e.2).symm
  rw [hstates, hstates, ← Verdict.ofSummary_of, ← Verdict.ofSummary_of, Summary.of_perm (h.map _)]

/-- The verdict of a report is the worst of its cases, whatever the report is to tell. If the
results of a run are those of two others that have no case in common, then its verdict is the worse
one of theirs, and a case that is added never makes the verdict better. -/
theorem synthesize_verdict (claim : Claim) (options : ReportOptions) :
    (synthesize ⟨claim⟩ options).verdict = .worst (claim.results.values.map CaseRecord.verdict) ∧
    (∀ (other whole : Claim) (options' options'' : ReportOptions),
      (∀ name, claim.results.contains name = true → other.results.get? name = none) →
      whole.results = claim.results.union other.results →
      (synthesize ⟨whole⟩ options'').verdict =
        max (synthesize ⟨claim⟩ options).verdict (synthesize ⟨other⟩ options').verdict) ∧
    ∀ (more : Claim) (options' : ReportOptions) (name : String) (record : CaseRecord),
      claim.results.get? name = none → more.results = claim.results.insert name record →
      (synthesize ⟨claim⟩ options).verdict ≤ (synthesize ⟨more⟩ options').verdict := by
  simp only [verdict_synthesize, Table.values, List.map_map, Function.comp_def]
  refine ⟨trivial, ?_, ?_⟩
  · intro other whole _ _ hdisjoint hwhole
    rw [hwhole, worst_verdict_perm (Table.union_perm hdisjoint), List.map_append,
      Verdict.worst_append]
  · intro more _ name record hfresh hmore
    rw [hmore, worst_verdict_perm (Table.insert_perm _ record hfresh)]
    exact le_max_right _ _

def claimOf (states : List (String × String)) : Claim :=
  { results := .ofList (states.map fun e => (e.1, { state := e.2 })) }

/-- Two parts of a run, one of which failed, and a case with a state that nobody knows. -/
theorem synthesize_verdict_parts :
    let first := claimOf [("a", "skipped"), ("b", "passed")]
    let second := claimOf [("c", "failed"), ("d", "skipped")]
    let whole : Claim := { results := first.results.union second.results }
    let more : Claim := { results := first.results.insert "e" { state := "PASSED" } }
    (∀ name, first.results.contains name = true → second.results.get? name = none) ∧
      first.results.get? "e" = none ∧
      (synthesize ⟨first⟩ {}).verdict = .worst [.skip, .pass] ∧
      (synthesize ⟨whole⟩ {}).verdict =
        max (synthesize ⟨first⟩ {}).verdict (synthesize ⟨second⟩ {}).verdict ∧
      (synthesize ⟨first⟩ {}).verdict ≤ (synthesize ⟨more⟩ {}).verdict := by
  intro first second whole more
  have hdisjoint : ∀ name, first.results.contains name = true →
      second.results.get? name = none := by
    have hkeys : ∀ name ∈ first.results.keys, second.results.get? name = none := by
      decide +kernel
    intro name hname
    exact hkeys name ((Table.mem_keys _ _).2 hname)
  have hfresh : first.results.get? "e" = none := by decide +kernel
  obtain ⟨hverdict, hunion, hmore⟩ := synthesize_verdict first {}
  refine ⟨hdisjoint, hfresh, hverdict, ?_, ?_⟩
  · exact hunion second whole {} {} hdisjoint rfl
  · exact hmore more {} "e" _ hfresh rfl

end CertRuns
