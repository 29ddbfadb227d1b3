import CertRuns.Proofs.Control.Tracker
import CertRuns.Proofs.Execution

/-!
# Claims over the whole history of a tracker

A tracker in the hands of any number of users: every operation may come at any moment, and a claim
that was handed out is used up once, by a commit or by giving it back. Claims of a run that were
overtaken by its removal stay around for as long as their users like, next to the claim that counts.

* `Operation`, `Ledger`, `Ledger.Step` : the operations, a tracker with the claims in its users'
  hands, and what an operation does to them;
* `overtaken c history` : the run of `c` was removed after `c` was handed out;
* `committed? key history` : the pod and the token committed since the run was last claimed;
* `Sound history l` : what every step keeps; `sound`;
* `Lawful history l` : what each operation answers and does after a history; `lawful`.
-/

namespace CertRuns.Tracker

/-- What the users of a tracker do. -/
inductive Operation where
  | claim (key : ObjectKey)
  | commit (c : RunClaim) (podName : String) (cancel : Token)
  | release (c : RunClaim)
  | complete (key : ObjectKey)
  | remove (key : ObjectKey)
  deriving DecidableEq, Repr

/-- A tracker and the claims that were handed out and are not used up. -/
structure Ledger where
  tracker : Tracker := {}
  pending : List RunClaim := []
  deriving DecidableEq, Repr

/-- An operation; a claim is used up by the commit or the release that it is used for. -/
inductive Ledger.Step : Ledger → Operation → Ledger → Prop
  | claim (l : Ledger) (key : ObjectKey) : Step l (.claim key)
      ⟨(l.tracker.claim key).1, (l.tracker.claim key).2.toList ++ l.pending⟩
  | commit (l : Ledger) {c : RunClaim} (podName : String) (cancel : Token) (h : c ∈ l.pending) :
      Step l (.commit c podName cancel)
        ⟨(l.tracker.commit c podName cancel).1, l.pending.erase c⟩
  | release (l : Ledger) {c : RunClaim} (h : c ∈ l.pending) :
      Step l (.release c) ⟨l.tracker.release c, l.pending.erase c⟩
  | complete (l : Ledger) (key : ObjectKey) :
      Step l (.complete key) ⟨l.tracker.complete key, l.pending⟩
  | remove (l : Ledger) (key : ObjectKey) :
      Step l (.remove key) ⟨(l.tracker.remove key).1, l.pending⟩

/-- A history of a tracker: the operations so far, the last one first, each with the state in which
it was carried out. -/
abbrev Past := List (Ledger × Operation)

variable {history : Past} {l l' : Ledger} {op : Operation} {c c' : RunClaim} {key k : ObjectKey}
  {run : TrackedRun}

/-! ## What a history says -/

def overtaken (c : RunClaim) : Past → Bool
  | [] => false
  | (l, op) :: earlier =>
    !decide (op = .claim c.key ∧ (l.tracker.claim c.key).2 = some c) &&
      (decide (op = .remove c.key) || overtaken c earlier)

/-- The pod and the token of the commit that succeeded since the run was last claimed. -/
def committed? (key : ObjectKey) : Past → Option (String × Token)
  | [] => none
  | (l, .claim k) :: earlier =>
    if k = key ∧ (l.tracker.claim k).2.isSome then none else committed? key earlier
  | (l, .commit c podName cancel) :: earlier =>
    if c.key = key ∧ (l.tracker.commit c podName cancel).2 then some (podName, cancel)
    else committed? key earlier
  | (_, _) :: earlier => committed? key earlier

def Operation.claims : Operation → Bool
  | .claim _ => true
  | _ => false

theorem eq_of_claim (h : (l.tracker.claim key).2 = some c) :
    c = ⟨key, l.tracker.claims + 1⟩ := by
  cases hrun : l.tracker.runs.get? key with
  | none =>
    rw [claim_eq_some hrun, Option.some.injEq] at h
    exact h.symm
  | some run =>
    rw [claim_eq_none hrun] at h
    exact absurd h (by simp)

/-- A claim that was handed out before is overtaken by a removal of its run and by nothing else. -/
theorem overtaken_cons (h : c.number ≤ l.tracker.claims) :
    overtaken c ((l, op) :: history) = (decide (op = .remove c.key) || overtaken c history) := by
  have hnew : ¬ (op = .claim c.key ∧ (l.tracker.claim c.key).2 = some c) := by
    intro hc
    have hnumber := congrArg RunClaim.number (eq_of_claim hc.2)
    simp only at hnumber
    omega
  rw [overtaken, decide_eq_false hnew, Bool.not_false, Bool.true_and]

/-! ## What every step keeps -/

/-- An entry shows what was committed for its run. -/
structure Shows (run : TrackedRun) (done : Option (String × Token)) : Prop where
  podName_eq : run.podName = done.map (·.1)
  cancel_eq : run.cancel = done.map (·.2)
  deploying : run.state = .deploying → done = none

/-- What a ledger with this history has. -/
structure Sound (history : Past) (l : Ledger) : Prop where
  /-- No two claims in hand have one number. -/
  distinct : (l.pending.map (·.number)).Nodup
  pending_le : ∀ c ∈ l.pending, c.number ≤ l.tracker.claims
  entry_le : ∀ key run, l.tracker.runs.get? key = some run → run.number ≤ l.tracker.claims
  /-- No claim got a number above the number of claims that were asked for. -/
  claims_le : l.tracker.claims ≤ history.countP fun moment => moment.2.claims
  /-- A claim in hand is the one that the entry stems from iff it was not overtaken. -/
  holds_eq : ∀ c ∈ l.pending, l.tracker.holds c = !overtaken c history
  entry_shows : ∀ key run, l.tracker.runs.get? key = some run →
    Shows run (committed? key history)

namespace Sound

theorem start : Sound [] {} where
  distinct := List.nodup_nil
  pending_le c hc := absurd hc (by simp)
  entry_le key run hrun := absurd hrun (by simp)
  claims_le := Nat.le_refl _
  holds_eq c hc := absurd hc (by simp)
  entry_shows key run hrun := absurd hrun (by simp)

/-- Two claims in hand with one number are one claim. -/
theorem eq_of_number (h : Sound history l) (hc : c ∈ l.pending) (hc' : c' ∈ l.pending)
    (hnumber : c.number = c'.number) : c = c' := by
  have hdistinct := h.distinct
  generalize l.pending = claims at hc hc' hdistinct
  induction claims with
  | nil => cases hc
  | cons d claims ih =>
    rw [List.map_cons, List.nodup_cons, List.mem_map] at hdistinct
    obtain ⟨hfresh, hdistinct⟩ := hdistinct
    rcases List.mem_cons.1 hc with rfl | hmem
    · rcases List.mem_cons.1 hc' with rfl | hmem'
      · rfl
      · exact absurd ⟨c', hmem', hnumber.symm⟩ hfresh
    · rcases List.mem_cons.1 hc' with rfl | hmem'
      · exact absurd ⟨c, hmem, hnumber⟩ hfresh
      · exact ih hmem hmem' hdistinct

/-- If two claims in hand both count and are of one run, they are one claim. -/
theorem eq_of_holds (h : Sound history l) (hc : c ∈ l.pending) (hc' : c' ∈ l.pending)
    (hholds : l.tracker.holds c = true) (hholds' : l.tracker.holds c' = true)
    (hkey : c.key = c'.key) : c = c' := by
  obtain ⟨run, hrun, hnumber⟩ := holds_iff.1 hholds
  obtain ⟨run', hrun', hnumber'⟩ := holds_iff.1 hholds'
  rw [hkey, hrun', Option.some.injEq] at hrun
  subst hrun
  exact h.eq_of_number hc hc' (hnumber.symm.trans hnumber')

/-- A claim that is used up is in nobody's hands any more. -/
theorem mem_erase (h : Sound history l) (hc' : c' ∈ l.pending.erase c) :
    c' ∈ l.pending ∧ c' ≠ c := by
  have hnodup : l.pending.Nodup :=
    (List.pairwise_map.1 h.distinct).imp fun hne heq => hne (congrArg _ heq)
  rw [hnodup.mem_erase_iff] at hc'
  exact ⟨hc'.2, hc'.1⟩

theorem distinct_erase (h : Sound history l) (c : RunClaim) :
    ((l.pending.erase c).map (·.number)).Nodup :=
  h.distinct.sublist (List.erase_sublist.map _)

theorem claims_le_cons (h : Sound history l) (op : Operation) :
    l.tracker.claims ≤ ((l, op) :: history).countP fun moment => moment.2.claims := by
  have hle := h.claims_le
  rw [List.countP_cons]
  omega

/-- An operation that is no removal overtakes no claim. -/
theorem overtaken_eq (h : Sound history l) (hop : op ≠ .remove c.key) (hc : c ∈ l.pending) :
    overtaken c ((l, op) :: history) = overtaken c history := by
  rw [overtaken_cons (h.pending_le c hc), decide_eq_false hop, Bool.false_or]

/-! One lemma for each operation. -/

theorem refused (h : Sound history l) (hrun : l.tracker.runs.get? key = some run) :
    Sound ((l, .claim key) :: history) l := by
  refine { h with claims_le := h.claims_le_cons _, holds_eq := ?_, entry_shows := ?_ }
  · intro c hc
    rw [h.overtaken_eq (by simp) hc]
    exact h.holds_eq c hc
  · intro k run' hrun'
    rw [committed?, claim_eq_none hrun, if_neg (by simp)]
    exact h.entry_shows k run' hrun'

theorem granted (h : Sound history l) (hrun : l.tracker.runs.get? key = none) :
    Sound ((l, .claim key) :: history)
      ⟨l.tracker.claimed key, ⟨key, l.tracker.claims + 1⟩ :: l.pending⟩ := by
  have hanswer : (l.tracker.claim key).2 = some ⟨key, l.tracker.claims + 1⟩ := by
    rw [claim_eq_some hrun]
  refine ⟨?_, ?_, ?_, ?_, ?_, ?_⟩
  · refine List.nodup_cons.2 ⟨fun hmem => ?_, h.distinct⟩
    obtain ⟨c, hc, hnumber⟩ := List.mem_map.1 hmem
    have hle := h.pending_le c hc
    rw [hnumber] at hle
    exact Nat.not_succ_le_self _ hle
  · intro c hc
    rcases List.mem_cons.1 hc with rfl | hc
    · exact Nat.le_refl _
    · exact Nat.le_succ_of_le (h.pending_le c hc)
  · intro k run' hrun'
    rw [get?_claimed] at hrun'
    split at hrun'
    · cases hrun'
      exact Nat.le_refl _
    · exact Nat.le_succ_of_le (h.entry_le k run' hrun')
  · have hcount := List.countP_cons_of_pos (p := fun moment => moment.2.claims)
      (a := (l, Operation.claim key)) (l := history) rfl
    rw [hcount]
    exact Nat.succ_le_succ h.claims_le
  · intro c hc
    rcases List.mem_cons.1 hc with rfl | hc
    · have hnew : (l.tracker.claimed key).holds ⟨key, l.tracker.claims + 1⟩ = true :=
        holds_iff.2 ⟨_, by rw [get?_claimed, if_pos rfl], rfl⟩
      rw [hnew, overtaken, decide_eq_true ⟨rfl, hanswer⟩]
      rfl
    · rw [h.overtaken_eq (by simp) hc, ← h.holds_eq c hc]
      by_cases hkey : c.key = key
      · have hle := h.pending_le c hc
        have hbefore : l.tracker.holds c = false := by
          rw [← Bool.not_eq_true, holds_iff, hkey, hrun]
          simp
        rw [hbefore, ← Bool.not_eq_true, holds_iff, get?_claimed, if_pos hkey]
        rintro ⟨_, hnew, hnumber⟩
        cases hnew
        simp only at hnumber
        omega
      · exact holds_congr (by rw [get?_claimed, if_neg hkey])
  · intro k run' hrun'
    rw [get?_claimed] at hrun'
    split at hrun'
    · rename_i hk
      cases hrun'
      rw [committed?, hanswer, if_pos ⟨hk.symm, rfl⟩]
      exact ⟨rfl, rfl, fun _ => rfl⟩
    · rename_i hk
      rw [committed?, if_neg (fun hc => hk hc.1.symm)]
      exact h.entry_shows k run' hrun'

/-- A commit that comes too late. -/
theorem late (h : Sound history l) {podName : String} {cancel : Token}
    (hholds : l.tracker.holds c = false) :
    Sound ((l, .commit c podName cancel) :: history) ⟨l.tracker, l.pending.erase c⟩ := by
  refine ⟨h.distinct_erase c, fun c' hc' => h.pending_le c' (h.mem_erase hc').1, h.entry_le,
    h.claims_le_cons _, ?_, ?_⟩
  · intro c' hc'
    rw [h.overtaken_eq (by simp) (h.mem_erase hc').1]
    exact h.holds_eq c' (h.mem_erase hc').1
  · intro k run' hrun'
    rw [committed?, commit_of_not_holds hholds, if_neg (by simp)]
    exact h.entry_shows k run' hrun'

/-- A commit that comes in time. -/
theorem committed (h : Sound history l) {podName : String} {cancel : Token} (hc : c ∈ l.pending)
    (hholds : l.tracker.holds c = true) :
    Sound ((l, .commit c podName cancel) :: history)
      ⟨l.tracker.committed c podName cancel, l.pending.erase c⟩ := by
  refine ⟨h.distinct_erase c, fun c' hc' => h.pending_le c' (h.mem_erase hc').1, ?_,
    h.claims_le_cons _, ?_, ?_⟩
  · intro k run' hrun'
    rw [get?_committed] at hrun'
    split at hrun'
    · cases hrun'
      exact h.pending_le c hc
    · exact h.entry_le k run' hrun'
  · intro c' hc'
    obtain ⟨hmem, hne⟩ := h.mem_erase hc'
    rw [h.overtaken_eq (by simp) hmem, ← h.holds_eq c' hmem]
    by_cases hkey : c'.key = c.key
    · -- the entry stems from `c`, so it never stemmed from another claim in hand
      have hbefore : l.tracker.holds c' = false := by
        rw [← Bool.not_eq_true]
        exact fun hholds' => hne (h.eq_of_holds hmem hc hholds' hholds hkey)
      rw [hbefore, ← Bool.not_eq_true, holds_iff, get?_committed, if_pos hkey]
      rintro ⟨_, hnew, hnumber⟩
      cases hnew
      exact hne (h.eq_of_number hmem hc hnumber.symm)
    · exact holds_congr (by rw [get?_committed, if_neg hkey])
  · intro k run' hrun'
    rw [get?_committed] at hrun'
    split at hrun'
    · rename_i hk
      cases hrun'
      rw [committed?, commit_of_holds hholds, if_pos ⟨hk.symm, rfl⟩]
      exact ⟨rfl, rfl, fun hstate => by cases hstate⟩
    · rename_i hk
      rw [committed?, if_neg (fun hc => hk hc.1.symm)]
      exact h.entry_shows k run' hrun'

theorem released (h : Sound history l) (hc : c ∈ l.pending) :
    Sound ((l, .release c) :: history) ⟨l.tracker.release c, l.pending.erase c⟩ := by
  refine ⟨h.distinct_erase c, ?_, ?_, ?_, ?_, ?_⟩
  · intro c' hc'
    rw [claims_release]
    exact h.pending_le c' (h.mem_erase hc').1
  · intro k run' hrun'
    rw [get?_release] at hrun'
    split at hrun'
    · cases hrun'
    · rw [claims_release]
      exact h.entry_le k run' hrun'
  · rw [claims_release]
    exact h.claims_le_cons _
  · intro c' hc'
    obtain ⟨hmem, hne⟩ := h.mem_erase hc'
    rw [h.overtaken_eq (by simp) hmem, ← h.holds_eq c' hmem]
    by_cases hdrop : l.tracker.holds c = true ∧ c'.key = c.key
    · have hbefore : l.tracker.holds c' = false := by
        rw [← Bool.not_eq_true]
        exact fun hholds' => hne (h.eq_of_holds hmem hc hholds' hdrop.1 hdrop.2)
      rw [hbefore, ← Bool.not_eq_true, holds_iff, get?_release, if_pos hdrop]
      simp
    · exact holds_congr (by rw [get?_release, if_neg hdrop])
  · intro k run' hrun'
    rw [get?_release] at hrun'
    split at hrun'
    · cases hrun'
    · exact h.entry_shows k run' hrun'

theorem completed (h : Sound history l) (key : ObjectKey) :
    Sound ((l, .complete key) :: history) ⟨l.tracker.complete key, l.pending⟩ := by
  have hentry : ∀ {k run'}, (l.tracker.complete key).runs.get? k = some run' →
      ∃ run, l.tracker.runs.get? k = some run ∧ run' = { run with state := run'.state } ∧
        (run'.state = .deploying → run.state = .deploying) := by
    intro k run' hrun'
    rw [get?_complete] at hrun'
    split at hrun'
    · obtain ⟨run, hrun, rfl⟩ := Option.map_eq_some_iff.1 hrun'
      exact ⟨run, hrun, rfl, fun hstate => by cases hstate⟩
    · exact ⟨run', hrun', rfl, id⟩
  refine ⟨h.distinct, h.pending_le, ?_, h.claims_le_cons _, ?_, ?_⟩
  · intro k run' hrun'
    obtain ⟨run, hrun, heq, -⟩ := hentry hrun'
    rw [heq]
    exact h.entry_le k run hrun
  · intro c hc
    rw [h.overtaken_eq (by simp) hc, ← h.holds_eq c hc, Bool.eq_iff_iff, holds_iff, holds_iff,
      get?_complete]
    split
    · constructor
      · rintro ⟨run', hrun', hnumber⟩
        obtain ⟨run, hrun, rfl⟩ := Option.map_eq_some_iff.1 hrun'
        exact ⟨run, hrun, hnumber⟩
      · rintro ⟨run, hrun, hnumber⟩
        exact ⟨_, Option.map_eq_some_iff.2 ⟨run, hrun, rfl⟩, hnumber⟩
    · exact Iff.rfl
  · intro k run' hrun'
    obtain ⟨run, hrun, heq, hstate⟩ := hentry hrun'
    have hshows := h.entry_shows k run hrun
    rw [heq]
    exact ⟨hshows.podName_eq, hshows.cancel_eq, fun hnew => hshows.deploying (hstate hnew)⟩

theorem removed (h : Sound history l) (key : ObjectKey) :
    Sound ((l, .remove key) :: history) ⟨l.tracker.without key, l.pending⟩ := by
  have hentry : ∀ {k run'}, (l.tracker.without key).runs.get? k = some run' →
      l.tracker.runs.get? k = some run' := by
    intro k run' hrun'
    rw [get?_without] at hrun'
    split at hrun'
    · cases hrun'
    · exact hrun'
  refine ⟨h.distinct, h.pending_le, fun k run' hrun' => h.entry_le k run' (hentry hrun'),
    h.claims_le_cons _, ?_, fun k run' hrun' => h.entry_shows k run' (hentry hrun')⟩
  intro c hc
  by_cases hkey : c.key = key
  · rw [overtaken_cons (h.pending_le c hc), decide_eq_true (by rw [hkey]), Bool.true_or,
      Bool.not_true, ← Bool.not_eq_true, holds_iff, get?_without, if_pos hkey]
    simp
  · rw [h.overtaken_eq (by simpa using Ne.symm hkey) hc, ← h.holds_eq c hc]
    exact holds_congr (by rw [get?_without, if_neg hkey])

theorem step (h : Sound history l) (hstep : l.Step op l') : Sound ((l, op) :: history) l' := by
  cases hstep with
  | claim key =>
    cases hrun : l.tracker.runs.get? key with
    | some run =>
      rw [claim_eq_none hrun]
      exact h.refused hrun
    | none =>
      rw [claim_eq_some hrun]
      exact h.granted hrun
  | commit podName cancel hc =>
    rename_i c
    cases hholds : l.tracker.holds c with
    | false =>
      rw [commit_of_not_holds hholds]
      exact h.late hholds
    | true =>
      rw [commit_of_holds hholds]
      exact h.committed hc hholds
  | release hc => exact h.released hc
  | complete key => exact h.completed key
  | remove key => exact h.removed key

end Sound

theorem sound (h : Execution Ledger.Step {} history l) : Sound history l := by
  induction h with
  | start => exact .start
  | next _ last ih => exact ih.step last

/-! ## What the operations answer -/

/-- What the operations of a tracker answer and do after a history. -/
structure Lawful (history : Past) (l : Ledger) : Prop where
  /-- A claim is granted iff the run has no entry. -/
  claim_granted : ∀ key,
    (l.tracker.claim key).2.isSome = true ↔ l.tracker.runs.get? key = none
  /-- The numbers of claims never exceed the number of claims that were asked for. -/
  number_le : ∀ c ∈ l.pending, c.number ≤ history.countP fun moment => moment.2.claims
  /-- A commit succeeds iff its run was not removed since it was claimed. -/
  commit_iff : ∀ c ∈ l.pending, ∀ podName cancel,
    (l.tracker.commit c podName cancel).2 = true ↔ overtaken c history = false
  /-- A commit that succeeds sets the entry of its run and no other one. -/
  commit_entry : ∀ c ∈ l.pending, ∀ podName cancel, overtaken c history = false →
    ∀ key, (l.tracker.commit c podName cancel).1.runs.get? key =
      if key = c.key then some ⟨c.number, some podName, some cancel, .running⟩
      else l.tracker.runs.get? key
  /-- A commit that comes too late changes nothing. -/
  commit_late : ∀ c ∈ l.pending, ∀ podName cancel, overtaken c history = true →
    (l.tracker.commit c podName cancel).1 = l.tracker
  /-- A claim that is given back takes its own entry with it, which is there, and no other one. -/
  release_own : ∀ c ∈ l.pending, overtaken c history = false →
    (∃ run, l.tracker.runs.get? c.key = some run ∧ run.number = c.number) ∧
    ∀ key, (l.tracker.release c).runs.get? key =
      if key = c.key then none else l.tracker.runs.get? key
  /-- A claim that is given back too late changes nothing. -/
  release_late : ∀ c ∈ l.pending, overtaken c history = true → l.tracker.release c = l.tracker
  /-- A removal hands back what was committed since the run was claimed. -/
  remove_answer : ∀ key, (l.tracker.remove key).2 = (l.tracker.runs.get? key).map fun _ =>
    ⟨(committed? key history).map (·.1), (committed? key history).map (·.2)⟩
  /-- An entry has a pod iff it has a token. -/
  paired : ∀ key run, l.tracker.runs.get? key = some run →
    (run.podName.isSome = true ↔ run.cancel.isSome = true)
  /-- A run that is being deployed has no pod yet. -/
  deploying : ∀ key run, l.tracker.runs.get? key = some run → run.state = .deploying →
    run.podName = none

theorem Sound.holds_iff_not_overtaken (h : Sound history l) (hc : c ∈ l.pending) :
    l.tracker.holds c = true ↔ overtaken c history = false := by
  rw [h.holds_eq c hc, Bool.not_eq_true']

theorem Sound.not_holds_of_overtaken (h : Sound history l) (hc : c ∈ l.pending)
    (hlate : overtaken c history = true) : l.tracker.holds c = false := by
  rw [h.holds_eq c hc, hlate, Bool.not_true]

/-- The operations of a tracker obey its laws after every history. -/
theorem lawful (h : Execution Ledger.Step {} history l) : Lawful history l := by
  have hsound := sound h
  constructor
  case claim_granted =>
    intro key
    cases hrun : l.tracker.runs.get? key with
    | none => simp [claim_eq_some hrun]
    | some run => simp [claim_eq_none hrun]
  case number_le =>
    intro c hc
    exact Nat.le_trans (hsound.pending_le c hc) hsound.claims_le
  case commit_iff =>
    intro c hc podName cancel
    rw [← hsound.holds_iff_not_overtaken hc]
    cases hholds : l.tracker.holds c with
    | false => simp [commit_of_not_holds hholds]
    | true => simp [commit_of_holds hholds]
  case commit_entry =>
    intro c hc podName cancel htime key
    rw [commit_of_holds ((hsound.holds_iff_not_overtaken hc).2 htime)]
    exact get?_committed ..
  case commit_late =>
    intro c hc podName cancel hlate
    rw [commit_of_not_holds (hsound.not_holds_of_overtaken hc hlate)]
  case release_own =>
    intro c hc htime
    have hholds := (hsound.holds_iff_not_overtaken hc).2 htime
    refine ⟨holds_iff.1 hholds, fun key => ?_⟩
    rw [get?_release, hholds]
    simp
  case release_late =>
    intro c hc hlate
    rw [release, hsound.not_holds_of_overtaken hc hlate]
    rfl
  case remove_answer =>
    intro key
    cases hrun : l.tracker.runs.get? key with
    | none => rw [remove_eq_none hrun, Option.map_none]
    | some run =>
      have hshows := hsound.entry_shows key run hrun
      rw [remove_eq_some hrun, Option.map_some, hshows.podName_eq, hshows.cancel_eq]
  case paired =>
    intro key run hrun
    have hshows := hsound.entry_shows key run hrun
    rw [hshows.podName_eq, hshows.cancel_eq, Option.isSome_map, Option.isSome_map]
  case deploying =>
    intro key run hrun hstate
    have hshows := hsound.entry_shows key run hrun
    rw [hshows.podName_eq, hshows.deploying hstate, Option.map_none]

/-- A run is claimed, removed and claimed again; both claims are in their users' hands. The first
commit answers that it is too late and leaves the entry of the second claim as it is. -/
theorem lawful_reclaimed : ∃ history l, Execution Ledger.Step {} history l ∧
    ∃ old new : RunClaim, old.key = new.key ∧ old ∈ l.pending ∧ new ∈ l.pending ∧
      overtaken old history = true ∧ overtaken new history = false ∧
      (l.tracker.commit old "cnf-job-run-1" ⟨0⟩).1 = l.tracker ∧
      (l.tracker.commit new "cnf-job-run-2" ⟨1⟩).2 = true := by
  let key : ObjectKey := ⟨"ops", "a"⟩
  have h : Execution Ledger.Step {} _ _ :=
    .next (.next (.next .start (.claim _ key)) (.remove _ key)) (.claim _ key)
  have hlaws := lawful h
  refine ⟨_, _, h, ⟨key, 1⟩, ⟨key, 2⟩, rfl, by decide +kernel, by decide +kernel,
    by decide +kernel, by decide +kernel, ?_, ?_⟩
  · exact hlaws.commit_late _ (by decide +kernel) _ _ (by decide +kernel)
  · exact (hlaws.commit_iff _ (by decide +kernel) _ _).2 (by decide +kernel)

end CertRuns.Tracker
