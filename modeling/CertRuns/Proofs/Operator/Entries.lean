import CertRuns.Proofs.Operator.Claims

/-!
# How an entry of a tracker changes

* `Alters` : what a move does to the entry of a run; `Step.alters` : every move does one of these;
* `misses`, `cleans` : a reconciliation sees that a run is gone, and removes its entry;
* `Step.claims_le`, `Step.tokens_le` : claims and tokens are counted up only.
-/

namespace CertRuns.Operator

open Rehearsal (Work)

variable {c c' : Operator} {m : Move} {owner : Nat} {key : ObjectKey}

/-! ## Seeing that a run is gone -/

/-- A reconciliation sees that the run is gone. -/
def misses (owner : Nat) (key : ObjectKey) : Operator × Move → Bool
  | (_, .resume _ (.reconcile o _ ⟨k, .fetching⟩) (.error e)) =>
    o == owner && k == key && e.isNotFound
  | _ => false

/-- A reconciliation sees that the run is gone, and removes its entry. -/
def cleans (owner : Nat) (key : ObjectKey) (moment : Operator × Move) : Bool :=
  misses owner key moment && (moment.1.tracked? owner key).isSome

theorem cleans_fetching {id : Nat} {told : Option Nat} {e : ClusterError}
    (he : e.isNotFound = true) (hentry : (c.tracked? owner key).isSome = true) :
    cleans owner key (c, .resume id (.reconcile owner told ⟨key, .fetching⟩) (.error e)) = true := by
  unfold cleans
  simp [misses, he, hentry]

theorem misses_eq_true (h : misses owner key (c, m) = true) :
    ∃ id told e, m = .resume id (.reconcile owner told ⟨key, .fetching⟩) (.error e) ∧
      e.isNotFound = true := by
  unfold misses at h
  split at h
  · rename_i heq
    cases heq
    simp only [Bool.and_eq_true, beq_iff_eq] at h
    obtain ⟨⟨rfl, rfl⟩, he⟩ := h
    exact ⟨_, _, _, rfl, he⟩
  · cases h

/-- An entry that is cleaned up is gone. -/
theorem Step.tracked?_cleans (h : c.Step m c') (hc : cleans owner key (c, m) = true) :
    c'.tracked? owner key = none := by
  unfold cleans at hc
  obtain ⟨hmiss, hsome⟩ := Bool.and_eq_true_iff.mp hc
  obtain ⟨id, told, e, rfl, he⟩ := misses_eq_true hmiss
  obtain ⟨_, rfl⟩ := h
  have hr := reconciles c.controllers c.clock owner told key .fetching (.error e)
  have hcs : (c.next (.resume id (.reconcile owner told ⟨key, .fetching⟩) (.error e))).controllers =
    ((Work.reconcile owner told ⟨key, .fetching⟩).resume c.controllers c.clock
      (.error e)).controllers := rfl
  generalize (Work.reconcile owner told ⟨key, .fetching⟩).resume c.controllers c.clock (.error e) =
    step at hr hcs
  cases hr with
  | orphan hd =>
    rw [tracked?, tracker, hd] at hsome
    cases hsome
  | turns hd hr ht =>
    rw [tracked?, (set_controller owner hd hcs).1, if_pos rfl, ht]
    rw [tracked?, tracker_eq hd] at hsome
    cases hr with
    | absent _ hentry =>
      rw [hentry] at hsome
      cases hsome
    | dropped | cleaning => simp [Tracker.get?_without]
    | unread hne =>
      rw [he] at hne
      cases hne

/-! ## Changes of an entry -/

/-- What a move does to the entry of a run. -/
inductive Alters (c : Operator) (owner : Nat) (key : ObjectKey) (c' : Operator) : Move → Prop
  /-- Nothing. -/
  | same {m : Move} (h : c'.tracked? owner key = c.tracked? owner key) : Alters c owner key c' m
  /-- The run is claimed. -/
  | claimed {id : Nat} {told : Option Nat} {run : Run} (hn : c.tracked? owner key = none)
      (h : c'.tracked? owner key = some ⟨(c.tracker owner).claims + 1, none, none, .deploying⟩) :
      Alters c owner key c' (.resume id (.reconcile owner told ⟨key, .fetching⟩) (.ok run))
  /-- A claim is committed. -/
  | committed {id : Nat} {told : Option Nat} {stage : Reconcile.Stage}
      {event : (Reconcile.mk key stage).wait.Event} {claim : RunClaim} {e : TrackedRun}
      {pod : ObjectKey} (hc : stage.claim? = some claim) (he : c.tracked? owner key = some e)
      (hn : e.number = claim.number)
      (h : c'.tracked? owner key = some ⟨claim.number, some pod.name, some ⟨c.tokens owner⟩, .running⟩)
      (ht : c'.tokens owner = c.tokens owner + 1)
      (hf : Reconcile.found? key stage event = some pod) :
      Alters c owner key c' (.resume id (.reconcile owner told ⟨key, stage⟩) event)
  /-- The run is cleaned up after. -/
  | removed {m : Move} (hc : cleans owner key (c, m) = true)
      (h : c'.tracked? owner key = none) : Alters c owner key c' m
  /-- A claim is given back. -/
  | released {id : Nat} {told : Option Nat} {stage : Reconcile.Stage}
      {event : (Reconcile.mk key stage).wait.Event} {claim : RunClaim} {e : TrackedRun}
      (hc : stage.claim? = some claim) (he : c.tracked? owner key = some e)
      (hn : e.number = claim.number) (h : c'.tracked? owner key = none) :
      Alters c owner key c' (.resume id (.reconcile owner told ⟨key, stage⟩) event)
  /-- A monitor of the run has come to its end. -/
  | completed {id : Nat} {u : StatusUpdate} {event : u.wait.Event} {e : TrackedRun}
      (he : c.tracked? owner key = some e)
      (h : c'.tracked? owner key = some { e with state := .completed }) :
      Alters c owner key c' (.resume id (.monitor owner ⟨key, .recording u⟩) event)

/-- What a step of a reconciliation does to the entry of its run. -/
theorem reconcile_alters {id : Nat} {told : Option Nat} {stage : Reconcile.Stage}
    {event : (Reconcile.mk key stage).wait.Event} {d d' : Controller} {turn : Reconcile.Turn}
    (hd : c.controllers[owner]? = some d) (hr : Reconcile.Resumes d c.clock key stage event d' turn)
    (ht : c'.tracker owner = d'.tracker) (hn : c'.tokens owner = d'.tokens)
    (hown : OwnClaim (.reconcile owner told ⟨key, stage⟩)) :
    Alters c owner key c' (.resume id (.reconcile owner told ⟨key, stage⟩) event) := by
  have hbefore : c.tracked? owner key = d.tracker.runs.get? key := by rw [tracked?, tracker_eq hd]
  have hafter : c'.tracked? owner key = d'.tracker.runs.get? key := by rw [tracked?, ht]
  have hcommit {claim : RunClaim} {pod : ObjectKey} (hc : stage.claim? = some claim)
      (hf : Reconcile.found? key stage event = some pod) (hh : d.tracker.holds claim = true)
      (hd' : d'.tracker = d.tracker.committed claim pod.name ⟨d.tokens⟩)
      (hn' : d'.tokens = d.tokens + 1) :
      Alters c owner key c' (.resume id (.reconcile owner told ⟨key, stage⟩) event) := by
    have hkey : claim.key = key := hown claim hc
    obtain ⟨e, he, hnumber⟩ := Tracker.holds_iff.mp hh
    rw [hkey, ← hbefore] at he
    have hentry : c'.tracked? owner key =
        some ⟨claim.number, some pod.name, some ⟨c.tokens owner⟩, .running⟩ := by
      rw [hafter, hd', Tracker.get?_committed, if_pos hkey.symm, tokens_eq hd]
    refine .committed hc he hnumber hentry ?_ hf
    rw [hn, hn', tokens_eq hd]
  have hrelease {claim : RunClaim} (hc : stage.claim? = some claim)
      (hd' : d'.tracker = d.tracker.release claim) :
      Alters c owner key c' (.resume id (.reconcile owner told ⟨key, stage⟩) event) := by
    have hkey : claim.key = key := hown claim hc
    have hentry := Tracker.get?_release d.tracker claim key
    by_cases hh : d.tracker.holds claim = true
    · obtain ⟨e, he, hnumber⟩ := Tracker.holds_iff.mp hh
      rw [hkey, ← hbefore] at he
      refine .released hc he hnumber ?_
      rw [hafter, hd', hentry, if_pos ⟨hh, hkey.symm⟩]
    · refine .same ?_
      rw [hafter, hd', hentry, if_neg (fun h => hh h.1), hbefore]
  cases hr with
  | absent | unread | refused | redeploy | announcing | unbuilt | deploy | rejected | excusing
  | recording | recorded | deleted | adoptLate | commitLate =>
    exact .same (hafter.trans hbefore.symm)
  | dropped he hentry | cleaning he hentry =>
    refine .removed (cleans_fetching he (by rw [hbefore, hentry]; rfl)) ?_
    rw [hafter, Controller.tracker_raise?, Controller.tracker_withTracker, Tracker.get?_without,
      if_pos rfl]
  | inspect hentry | announce hentry =>
    refine .claimed (by rw [hbefore, hentry]) ?_
    rw [hafter, Controller.tracker_withTracker, Tracker.get?_claimed, if_pos rfl, tracker_eq hd]
  | adopt hh => exact hcommit rfl rfl hh (by simp) (by simp)
  | commit hh => exact hcommit rfl rfl hh rfl rfl
  | uninspected | unannounced | excused => exact hrelease rfl rfl

theorem Step.alters (h : c.Step m c') (hown : OwnClaims c) (owner : Nat) (key : ObjectKey) :
    Alters c owner key c' m := by
  have hhandles := h.handles owner
  obtain ⟨he, rfl⟩ := h
  cases hhandles with
  | idle ht => exact .same (by rw [tracked?, ht, tracked?])
  | @complete id k u event result hu ht =>
    by_cases hk : key = k
    · subst hk
      cases hentry : c.tracked? owner key with
      | none =>
        refine .same ?_
        rw [hentry]
        rw [tracked?] at hentry ⊢
        rw [ht, Tracker.get?_complete, if_pos rfl, hentry]
        rfl
      | some e =>
        refine .completed hentry ?_
        rw [tracked?] at hentry ⊢
        rw [ht, Tracker.get?_complete, if_pos rfl, hentry]
        rfl
    · refine .same ?_
      rw [tracked?, ht, Tracker.get?_complete, if_neg hk, tracked?]
  | @reconcile id told k stage event d d' turn hd hr ht hn =>
    have hown := hown id _ _ he
    by_cases hk : key = k
    · subst hk
      exact reconcile_alters hd hr ht hn hown
    · refine .same ?_
      rw [tracked?, ht, hr.get?_other hown hk, tracked?, tracker_eq hd]

/-! ## Counters -/

theorem Step.claims_le (h : c.Step m c') (owner : Nat) :
    (c.tracker owner).claims ≤ (c'.tracker owner).claims := by
  cases h.handles owner with
  | idle ht => exact Nat.le_of_eq (by rw [ht])
  | complete _ ht => exact Nat.le_of_eq (by rw [ht]; rfl)
  | reconcile hd hr ht =>
    rw [tracker_eq hd, ht]
    exact hr.claims_le

theorem Step.tokens_le (h : c.Step m c') (owner : Nat) : c.tokens owner ≤ c'.tokens owner := by
  cases h.handles owner with
  | idle _ hn => exact Nat.le_of_eq hn.symm
  | complete _ _ hn => exact Nat.le_of_eq hn.symm
  | reconcile hd hr _ hn =>
    rw [tokens_eq hd, hn]
    exact hr.tokens_le

end CertRuns.Operator
