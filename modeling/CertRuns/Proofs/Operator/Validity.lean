import CertRuns.Proofs.Operator.Commits

/-!
# How long a claim is good

The operator checks a claim by its number when it commits it. That is the same as asking whether the
run has been cleaned up after since the claim was granted.

* `cleanedSince` : the run was cleaned up after since a task got its claim on it;
* `holds_iff` : a claim is good just as long as this has not happened.
-/

namespace CertRuns.Operator

variable {c c' : Operator} {m : Move} {owner i : Nat} {key : ObjectKey} {claim : RunClaim}
  {history : List (Operator × Move)}

/-- The run was cleaned up after since the task with number `i` got the claim that it works under. -/
def cleanedSince (owner : Nat) (key : ObjectKey) (i : Nat) : List (Operator × Move) → Bool
  | [] => false
  | (c, m) :: earlier =>
    (c.claim? owner i).isSome && (cleans owner key (c, m) || cleanedSince owner key i earlier)

theorem holds_iff_tracked : (c.tracker owner).holds claim = true ↔
    ∃ e, c.tracked? owner claim.key = some e ∧ e.number = claim.number := Tracker.holds_iff

/-- A claim that is not cleaned up after in a move is good after it if it was before. -/
theorem Step.holds_kept (h : c.Step m c') (hown : OwnClaims c) (hc : SoundClaims c owner)
    (hi : c.claim? owner i = some claim) (hm : m.subject? ≠ some i) :
    (c'.tracker owner).holds claim = true ↔
      (c.tracker owner).holds claim = true ∧ cleans owner claim.key (c, m) = false := by
  rw [holds_iff_tracked, holds_iff_tracked]
  have hdirty {e : TrackedRun} (he : c'.tracked? owner claim.key = some e) :
      cleans owner claim.key (c, m) = false := by
    rw [Bool.eq_false_iff]
    intro hclean
    rw [h.tracked?_cleans hclean] at he
    cases he
  have hgone (hnone : c'.tracked? owner claim.key = none)
      (hnot : ¬ ((∃ e, c.tracked? owner claim.key = some e ∧ e.number = claim.number) ∧
        cleans owner claim.key (c, m) = false)) :
      (∃ e, c'.tracked? owner claim.key = some e ∧ e.number = claim.number) ↔
        (∃ e, c.tracked? owner claim.key = some e ∧ e.number = claim.number) ∧
          cleans owner claim.key (c, m) = false := by
    refine ⟨fun ⟨e, he, _⟩ => ?_, fun hc => absurd hc hnot⟩
    rw [hnone] at he
    cases he
  cases h.alters hown owner claim.key with
  | same hentry =>
    rw [hentry]
    exact ⟨fun ⟨e, he, hn⟩ => ⟨⟨e, he, hn⟩, hdirty (hentry.trans he)⟩, And.left⟩
  | claimed hnone hentry =>
    -- the new entry has a number that no claim has had before
    rw [hentry, hnone]
    refine ⟨fun ⟨e, he, hn⟩ => ?_, fun ⟨⟨e, he, _⟩, _⟩ => by cases he⟩
    cases he
    have := hc.number_le hi
    exact absurd hn (Nat.ne_of_gt (Nat.lt_succ_of_le this))
  | committed _ he hn hentry =>
    rw [he, hentry]
    refine ⟨fun ⟨e, he', hn'⟩ => ?_, fun ⟨⟨e, he', hn'⟩, _⟩ => ?_⟩
    · cases he'
      exact ⟨⟨_, rfl, hn.trans hn'⟩, hdirty hentry⟩
    · cases he'
      exact ⟨_, rfl, hn.symm.trans hn'⟩
  | removed hclean hentry => exact hgone hentry fun hc => by rw [hclean] at hc; cases hc.2
  | released hother he hn hentry =>
    refine hgone hentry fun ⟨⟨e, he', hn'⟩, _⟩ => ?_
    rw [he] at he'
    cases he'
    exact hm (congrArg some (hc.unique (claim?_of_resume h hother) hi (hn.symm.trans hn')))
  | completed he hentry =>
    rw [he, hentry]
    refine ⟨fun ⟨e, he', hn'⟩ => ?_, fun ⟨⟨e, he', hn'⟩, _⟩ => ?_⟩
    · cases he'
      exact ⟨⟨_, rfl, hn'⟩, hdirty hentry⟩
    · cases he'
      exact ⟨_, rfl, hn'⟩

theorem holds_iff (h : Execution Step {} history c) (hi : c.claim? owner i = some claim) :
    (c.tracker owner).holds claim = true ↔ cleanedSince owner claim.key i history = false := by
  induction h generalizing claim with
  | start => cases hi
  | @next history s s' m before last ih =>
    have hown := ownClaims before
    have hc := soundClaims before owner
    rw [cleanedSince]
    cases last.claims hi with
    | kept hm hi =>
      rw [last.holds_kept hown hc hi hm, ih hi, hi]
      simp [and_comm]
    | carried hi ht =>
      have hentry : s'.tracked? owner claim.key = s.tracked? owner claim.key := by
        rw [tracked?, ht, tracked?]
      have hclean : cleans owner claim.key (s, m) = false := by
        rw [Bool.eq_false_iff]
        intro hclean
        have hsome := (Bool.and_eq_true_iff.mp hclean).2
        rw [← hentry, last.tracked?_cleans hclean] at hsome
        cases hsome
      rw [ht, ih hi, hi, hclean]
      simp
    | granted _ hn ht hb =>
      rw [holds_iff_tracked, tracked?, ht, Tracker.get?_claimed, if_pos rfl, hb]
      exact ⟨fun _ => rfl, fun _ => ⟨_, rfl, hn.symm⟩⟩

end CertRuns.Operator
