import CertRuns.Proofs.Operator.Entries
import CertRuns.Proofs.Site.Script

/-!
# One pod for a run

Pods come to a run in two ways: they are created for it, or the pod that its status names is
adopted. Both happen under a claim on the run, and a claim is good for one of them.

* `creates`, `adopts` : how a run gets a pod;
* `Work.stakes` : does a task hold a claim on the run, but no pod for it yet?
* `Balanced` : the pods that a run has got and the claims that may still get it one are no more
  than the cleanups and, if the run is tracked, one; kept by every move (`Balanced.step`).

The count needs no uniqueness of claims: a claim whose entry is gone has been paid for by the
cleanup that removed the entry.
-/

namespace CertRuns

open Rehearsal (Work Result)

/-! ## What counts -/

/-- Does the task hold a claim on the run, but no pod for it yet? -/
def Rehearsal.Work.stakes (owner : Nat) (key : ObjectKey) :
    (work : Work) → Option work.wait.Event → Bool
  | .reconcile _ _ ⟨_, .creating ..⟩, some (.ok _) => false
  | .reconcile o _ r, _ => o == owner && r.key == key && r.stage.claim?.isSome
  | _, _ => false

/-- Does the task hold a claim on the run after a step, but no pod for it yet? -/
def Rehearsal.Next.stakes (owner : Nat) (key : ObjectKey) : Rehearsal.Next → Bool
  | .going work => work.stakes owner key none
  | .ended _ => false

/-- Does a task hold a claim on the run, but no pod for it yet? -/
def Thread.stakes (owner : Nat) (key : ObjectKey) (t : Thread) : Bool :=
  match t.progress with
  | .waiting work answer => work.stakes owner key answer
  | .ended _ => false

namespace Operator

variable {c c' : Operator} {m : Move} {owner : Nat} {key : ObjectKey}

/-- A pod is created for the run. -/
def creates (owner : Nat) (key : ObjectKey) : Operator × Move → Bool
  | (_, .receive _ (.reconcile o _ ⟨k, .creating ..⟩) (.ok _)) => o == owner && k == key
  | _ => false

/-- The pod that the run's status names is adopted, or turned down because the run is no longer
claimed. -/
def adopts (owner : Nat) (key : ObjectKey) : Operator × Move → Bool
  | (_, .resume _ (.reconcile o _ ⟨k, .inspecting ..⟩) (.ok _)) => o == owner && k == key
  | _ => false

theorem creates_eq_true (h : creates owner key (c, m) = true) :
    ∃ id told run claim podName pod stored, m = .receive id
      (.reconcile owner told ⟨key, .creating run claim podName pod⟩) (.ok stored) := by
  unfold creates at h
  split at h
  · rename_i heq
    cases heq
    simp only [Bool.and_eq_true, beq_iff_eq] at h
    obtain ⟨rfl, rfl⟩ := h
    exact ⟨_, _, _, _, _, _, _, rfl⟩
  · cases h

/-! ## The balance of a step -/

/-- A step of a reconciliation of the run: what it takes is paid for. -/
theorem balance {d d' : Controller} {now : Instant} {stage : Reconcile.Stage}
    {event : (Reconcile.mk key stage).wait.Event} {turn : Reconcile.Turn} (told : Option Nat)
    (hr : Reconcile.Resumes d now key stage event d' turn) (id : Nat) :
    ((turned owner told turn).stakes owner key).toNat +
        (adopts owner key (c, .resume id (.reconcile owner told ⟨key, stage⟩) event)).toNat +
        (d.tracker.runs.get? key).isSome.toNat ≤
      (Rehearsal.Work.stakes owner key (.reconcile owner told ⟨key, stage⟩) (some event)).toNat +
        (misses owner key (c, .resume id (.reconcile owner told ⟨key, stage⟩) event) &&
          (d.tracker.runs.get? key).isSome).toNat +
        (d'.tracker.runs.get? key).isSome.toNat := by
  have htracked (t : Tracker) : (t.runs.get? key).isSome.toNat ≤ 1 := Bool.toNat_le _
  unfold Rehearsal.Next.stakes Rehearsal.Work.stakes adopts misses
  cases hr with
  | absent he hentry => simp [turned, hentry]
  | dropped he hentry | cleaning he hentry => simp [turned, hentry, he, Reconcile.Stage.claim?]
  | unread | refused => simp [turned]
  | inspect hentry | announce hentry =>
    simp [turned, hentry, Reconcile.Stage.claim?, Tracker.get?_claimed]
  | adopt | commit =>
    simp only [turned, Reconcile.Stage.claim?, Controller.tracker_withTracker, Tracker.get?_committed]
    split
    · have := htracked d.tracker
      simp
      omega
    · simp
  | adoptLate | commitLate => simp [turned, Reconcile.Stage.claim?]
  | redeploy | announcing | deploy | unbuilt | rejected | excusing =>
    simp [turned, Reconcile.Stage.claim?]
  | uninspected | unannounced | excused =>
    have := htracked d.tracker
    simp [turned, Reconcile.Stage.claim?]
    omega
  | recording | recorded | deleted => simp [turned, Reconcile.Stage.claim?]

/-- A reconciliation of another run, or under another controller, does not count. -/
theorem stakes_foreign {o : Nat} {r : Reconcile} (h : ¬ (o = owner ∧ r.key = key))
    (told : Option Nat) (answer : Option r.wait.Event) :
    Rehearsal.Work.stakes owner key (.reconcile o told r) answer = false := by
  unfold Rehearsal.Work.stakes
  split
  · rfl
  · rename_i heq _
    cases heq
    have hb : (o == owner && r.key == key) = false := by simpa using h
    rw [hb, Bool.false_and]
  · rfl

theorem adopts_le_stakes (owner : Nat) (key : ObjectKey) (c : Operator) (id : Nat) (work : Work)
    (event : work.wait.Event) :
    (adopts owner key (c, .resume id work event)).toNat ≤
      (work.stakes owner key (some event)).toNat := by
  unfold adopts
  split
  · rename_i heq
    cases heq
    simp [Rehearsal.Work.stakes, Reconcile.Stage.claim?]
  · exact Nat.zero_le _

/-- A pod that is created uses up the claim under which it is created. -/
theorem stakes_receive (owner : Nat) (key : ObjectKey) (c : Operator) (id : Nat) (work : Work)
    (event : work.wait.Event) :
    (work.stakes owner key (some event)).toNat +
        (creates owner key (c, .receive id work event)).toNat =
      (work.stakes owner key none).toNat := by
  cases work with
  | reconcile o told r =>
    obtain ⟨k, stage⟩ := r
    cases stage with
    | creating run claim podName pod =>
      cases event with
      | error e => rfl
      | ok stored => simp [Rehearsal.Work.stakes, creates, Reconcile.Stage.claim?]
    | _ => rfl
  | _ => rfl

theorem stakes_start (owner : Nat) (key : ObjectKey) (parent : Option Nat) (o : Nat)
    (told : Option Nat) (k : ObjectKey) :
    (Thread.begin parent (.reconcile o told (.start k))).stakes owner key = false := by
  simp [Thread.stakes, Thread.begin, Rehearsal.Work.stakes, Reconcile.start, Reconcile.Stage.claim?]

theorem stakes_started (owner : Nat) (key : ObjectKey) {cs : List Controller} {now : Instant}
    {work : Work} {event : work.wait.Event} (id : Nat) :
    (work.resume cs now event).started.countP
      (fun new => (Thread.begin (some id) new).stakes owner key) = 0 := by
  rw [List.countP_eq_zero]
  intro new hn
  cases spawns hn with
  | event key' => rw [stakes_start owner key _ _ _ key']; exact Bool.false_ne_true
  | monitor => exact Bool.false_ne_true

/-- A move that takes no reconciliation on leaves a run tracked or untracked. -/
theorem Step.isSome_tracked? (h : c.Step m c') (owner : Nat) (key : ObjectKey)
    (hm : ∀ id o told r event, m ≠ .resume id (.reconcile o told r) event) :
    (c'.tracked? owner key).isSome = (c.tracked? owner key).isSome := by
  unfold tracked?
  cases h.handles owner with
  | idle ht => rw [ht]
  | reconcile => exact absurd rfl (hm _ _ _ _ _)
  | complete _ ht =>
    rw [ht, Tracker.get?_complete]
    split
    · rw [Option.isSome_map]
    · rfl

theorem stakes_proceed (t : Thread) (next : Rehearsal.Next) :
    (t.proceed next).stakes owner key = next.stakes owner key := by
  cases next <;> rfl

theorem stakes_of_progress {t : Thread} {work : Work} {answer : Option work.wait.Event}
    (h : t.progress = .waiting work answer) : t.stakes owner key = work.stakes owner key answer := by
  rw [Thread.stakes, h]

/-- A task that is no reconciliation does not become one. -/
theorem next_unstaked {work : Work} (hw : ∀ o told r, work ≠ .reconcile o told r)
    {cs : List Controller} {now : Instant} {event : work.wait.Event} :
    (work.resume cs now event).next.stakes owner key = false := by
  unfold Rehearsal.Next.stakes
  split
  · rename_i hn
    cases goes hn with
    | reconcile => exact absurd rfl (hw _ _ _)
    | _ => rfl
  · rfl

/-- What a step of a reconciliation takes is paid for. -/
theorem reconcile_balance (owner : Nat) (key : ObjectKey) (c : Operator) (id o : Nat)
    (told : Option Nat) {k : ObjectKey} {stage : Reconcile.Stage}
    (event : (Reconcile.mk k stage).wait.Event) (hown : OwnClaim (.reconcile o told ⟨k, stage⟩)) :
    (((Work.reconcile o told ⟨k, stage⟩).resume c.controllers c.clock event).next.stakes
          owner key).toNat +
        (adopts owner key (c, .resume id (.reconcile o told ⟨k, stage⟩) event)).toNat +
        (c.tracked? owner key).isSome.toNat ≤
      (Rehearsal.Work.stakes owner key (.reconcile o told ⟨k, stage⟩) (some event)).toNat +
        (cleans owner key (c, .resume id (.reconcile o told ⟨k, stage⟩) event)).toNat +
        ((c.next (.resume id (.reconcile o told ⟨k, stage⟩) event)).tracked?
          owner key).isSome.toNat := by
  have hr := reconciles c.controllers c.clock o told k stage event
  have hc : (c.next (.resume id (.reconcile o told ⟨k, stage⟩) event)).controllers =
      ((Work.reconcile o told ⟨k, stage⟩).resume c.controllers c.clock event).controllers := rfl
  generalize (Work.reconcile o told ⟨k, stage⟩).resume c.controllers c.clock event = step at hr hc
  have hadopts := adopts_le_stakes owner key c id (.reconcile o told ⟨k, stage⟩) event
  cases hr with
  | orphan hd =>
    have hentry : (c.next (.resume id (.reconcile o told ⟨k, stage⟩) event)).tracked? owner key =
        c.tracked? owner key := by
      rw [tracked?, (Alike.of_eq hc owner).1, tracked?]
    rw [hentry]
    simp only [Rehearsal.Next.stakes, Bool.toNat_false]
    omega
  | @turns d d' e turn hd hr ht =>
    obtain ⟨htracker, _⟩ := set_controller owner hd hc
    by_cases hk : o = owner ∧ k = key
    · obtain ⟨rfl, rfl⟩ := hk
      rw [if_pos rfl, ht] at htracker
      unfold cleans tracked?
      rw [htracker, tracker_eq hd]
      exact balance told hr id
    · have hentry : (c.next (.resume id (.reconcile o told ⟨k, stage⟩) event)).tracked? owner key =
          c.tracked? owner key := by
        rw [tracked?, htracker, tracked?]
        by_cases ho : owner = o
        · subst ho
          rw [if_pos rfl, ht, hr.get?_other hown (fun h => hk ⟨rfl, h.symm⟩), tracker_eq hd]
        · rw [if_neg ho]
      have hnext : (turned o told turn).stakes owner key = false := by
        cases turn with
        | ended => rfl
        | going r => exact stakes_foreign (by rw [hr.key_going]; exact hk) told none
      rw [hentry, hnext, Bool.toNat_false]
      omega

/-- What a move takes is paid for. -/
theorem Step.balance (h : c.Step m c') (hown : OwnClaims c) (owner : Nat) (key : ObjectKey) :
    c'.threads.countP (·.stakes owner key) + (creates owner key (c, m)).toNat +
        (adopts owner key (c, m)).toNat + (c.tracked? owner key).isSome.toNat ≤
      c.threads.countP (·.stakes owner key) + (cleans owner key (c, m)).toNat +
        (c'.tracked? owner key).isSome.toNat := by
  have hentry := h.isSome_tracked? owner key
  obtain ⟨he, rfl⟩ := h
  cases m with
  | pass | install | shutDown | raise | outside =>
    rw [hentry (fun _ _ _ _ _ h => by cases h)]
    exact Nat.le_refl _
  | start work =>
    rw [hentry (fun _ _ _ _ _ h => by cases h)]
    have hw : (Thread.begin none work).stakes owner key = false := by
      cases he with
      | reconcile o k => exact stakes_start owner key none o none k
      | _ => rfl
    simp [next, hw, creates, adopts]
  | receive id work event =>
    rw [hentry (fun _ _ _ _ _ h => by cases h)]
    obtain ⟨t, ht, hw⟩ := progress?_eq_some.mp he.1
    have hcount := countP_receive ht event (·.stakes owner key)
    have hstakes := stakes_receive owner key c id work event
    rw [stakes_of_progress hw] at hcount
    have hnew : (t.receive work event).stakes owner key = work.stakes owner key (some event) := rfl
    rw [hnew] at hcount
    have hadopts : adopts owner key (c, .receive id work event) = false := rfl
    rw [hadopts, Bool.toNat_false]
    omega
  | resume id work event =>
    obtain ⟨t, ht, hw⟩ := progress?_eq_some.mp he
    have hcount := countP_resume ht event (·.stakes owner key) rfl
    simp only [stakes_of_progress hw, stakes_proceed, stakes_started] at hcount
    have hcreates : creates owner key (c, .resume id work event) = false := rfl
    rw [hcreates, Bool.toNat_false]
    cases work with
    | reconcile o told r =>
      obtain ⟨k, stage⟩ := r
      have hr := reconcile_balance owner key c id o told event (hown id _ _ he)
      omega
    | _ =>
      rw [hentry (fun _ _ _ _ _ h => by cases h)]
      rw [next_unstaked (fun _ _ _ h => by cases h), Bool.toNat_false] at hcount
      have hadopts := adopts_le_stakes owner key c id _ event
      omega

/-! ## Executions -/

/-- The pods that a run has got and the claims that may still get it one are no more than its
cleanups and, if it is tracked, one. -/
def Balanced (owner : Nat) (key : ObjectKey) (history : List (Operator × Move)) (c : Operator) :
    Prop :=
  c.threads.countP (·.stakes owner key) + history.countP (creates owner key) +
      history.countP (adopts owner key) ≤
    history.countP (cleans owner key) + (c.tracked? owner key).isSome.toNat

theorem Balanced.step {history : List (Operator × Move)} (hb : Balanced owner key history c)
    (h : c.Step m c') (hown : OwnClaims c) : Balanced owner key ((c, m) :: history) c' := by
  have hstep := h.balance hown owner key
  unfold Balanced at hb ⊢
  rw [countP_cons_toNat, countP_cons_toNat, countP_cons_toNat]
  omega

theorem balanced {history : List (Operator × Move)} (h : Execution Step {} history c)
    (owner : Nat) (key : ObjectKey) : Balanced owner key history c := by
  induction h with
  | start => exact Nat.zero_le _
  | next before last ih => exact ih.step last (ownClaims before)

/-- At every moment the pods that were created for a run or adopted by it are at most one more than
the cleanups that removed its entry; as long as nobody has seen the run missing, at most one. -/
theorem creations_add_adoptions_le {history : List (Operator × Move)}
    (h : Execution Step {} history c) (owner : Nat) (key : ObjectKey) :
    history.countP (creates owner key) + history.countP (adopts owner key) ≤
        1 + history.countP (cleans owner key) ∧
      ((∀ moment ∈ history, misses owner key moment = false) →
        history.countP (creates owner key) + history.countP (adopts owner key) ≤ 1) := by
  have hb := balanced h owner key
  unfold Balanced at hb
  have htracked := Bool.toNat_le (c.tracked? owner key).isSome
  refine ⟨by omega, fun hseen => ?_⟩
  have hclean : history.countP (cleans owner key) = 0 := by
    rw [List.countP_eq_zero]
    intro moment hm
    rw [cleans, hseen moment hm]
    exact Bool.false_ne_true
  omega

/-- The run is deployed, removed, cleaned up after, applied and deployed again. -/
def redeployed : List (Site × Move) × Site :=
  Site.play (Sample.opening "first" ++
    (.reconcile 0 Sample.key :: Sample.exchanges 0 6) ++
    [.outside (.removeRun Sample.key), .reconcile 0 Sample.key, .serve 2 .epoch, .resume 2,
      .outside (.applyRun .epoch (Sample.run "second"))] ++
    (.reconcile 0 Sample.key :: Sample.exchanges 3 6))

/-- A run that is removed and applied again gets a second pod, and no third one. -/
theorem creations_redeployed :
    let history := Site.operatorHistory redeployed.1
    Execution Step {} history redeployed.2.operator ∧
      history.countP (creates 0 Sample.key) = 2 ∧ history.countP (cleans 0 Sample.key) = 1 ∧
      (history.countP (creates 0 Sample.key) + history.countP (adopts 0 Sample.key) ≤
          1 + history.countP (cleans 0 Sample.key) ∧
        ((∀ moment ∈ history, misses 0 Sample.key moment = false) →
          history.countP (creates 0 Sample.key) + history.countP (adopts 0 Sample.key) ≤ 1)) := by
  have h : Execution Step {} (Site.operatorHistory redeployed.1) redeployed.2.operator :=
    Site.operator_execution (Site.play_execution _)
  refine ⟨h, ?_, ?_, creations_add_adoptions_le h 0 Sample.key⟩
  · decide +kernel
  · decide +kernel

end Operator

end CertRuns
