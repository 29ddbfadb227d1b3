import CertRuns.Proofs.Operator.Validity
import CertRuns.Proofs.Site.Creations

/-!
# Where a created pod is kept

A pod that a controller has created is never lost while it is there: a reconciliation has just
created it, or the entry of its run names it, or a reconciliation is about to delete it.

* `strands` : a deletion fails although the pod is there; `discards` : the pod is gone;
* `Placed` : somebody is in charge of the pod; kept by every move (`Placed.step`);
* `placed` : somebody is in charge of every pod that a controller has created;
* `Step.turned_down` : a reconciliation that gets hold of a pod after its run was cleaned up after sets
  about deleting it; `deleted_or_deleting` : so the pod is deleted, or will be.
-/

namespace CertRuns

open Rehearsal (Work)

namespace Site

variable {t t' : Site} {m : Move} {history : List (Site × Move)} {owner id : Nat}
  {key pod : ObjectKey} {podName : String}

/-- A controller fails to delete a pod although it is there. -/
def strands (owner : Nat) : Site × Move → Bool
  | (t, .receive _ (.reconcile o _ ⟨_, .deleting pod⟩) (.error _)) =>
    o == owner && t.store.pods.contains pod
  | _ => false

/-- A task deletes a pod, or is told that it is not there, in a move. -/
def discards (id : Nat) (pod : ObjectKey) : Site × Move → Bool
  | (_, .receive i (.reconcile _ _ ⟨_, .deleting p⟩) (.ok _)) => i == id && p == pod
  | (t, .receive i (.reconcile _ _ ⟨_, .deleting p⟩) (.error _)) =>
    i == id && p == pod && !t.store.pods.contains pod
  | _ => false

/-! ## Pods that are there -/

/-- Somebody is in charge of the pod of a run. -/
inductive Placed (c : Operator) (owner : Nat) (key : ObjectKey) (podName : String) : Prop
  /-- A reconciliation has created it. -/
  | created {id : Nat} {told : Option Nat} {run : Run} {claim : RunClaim} {pod stored : Pod}
      (hw : c.progress? id = some (.waiting
        (.reconcile owner told ⟨key, .creating run claim podName pod⟩) (some (.ok stored))))
  /-- The entry of the run names it. -/
  | tracked {e : TrackedRun} {token : Token} (he : c.tracked? owner key = some e)
      (ht : e.cancel = some token) (hp : e.podName = some podName)
  /-- A reconciliation is about to delete it. -/
  | deleting {id : Nat} {told : Option Nat} (hw : c.progress? id = some (.waiting
      (.reconcile owner told ⟨key, .deleting ⟨key.ns, podName⟩⟩) none))

/-- A reconciliation that cleans up after a run sets about deleting its pod. -/
theorem cleaned_placed {c c' : Operator} (h : c.Step m c')
    (hc : Operator.cleans owner key (c, m) = true) {e : TrackedRun}
    (he : c.tracked? owner key = some e) (hp : e.podName = some podName) :
    Placed c' owner key podName := by
  obtain ⟨id, told, e', rfl, hmiss⟩ := Operator.misses_eq_true (Bool.and_eq_true_iff.mp hc).1
  cases hd : c.controllers[owner]? with
  | none =>
    rw [Operator.tracked?, Operator.tracker, hd] at he
    cases he
  | some d =>
    obtain ⟨d', turn, hr, _, hw⟩ := h.turns hd
    rw [Operator.tracked?, Operator.tracker_eq hd] at he
    cases hr with
    | absent _ hentry =>
      rw [he] at hentry
      cases hentry
    | dropped _ hentry hnone =>
      rw [he] at hentry
      cases hentry
      rw [hp] at hnone
      cases hnone
    | cleaning _ hentry hsome =>
      rw [he] at hentry
      cases hentry
      rw [hp] at hsome
      cases hsome
      exact .deleting hw
    | unread hne =>
      rw [hmiss] at hne
      cases hne

/-- A reconciliation that has created a pod commits it, or sets about deleting it. -/
theorem created_placed (h : Execution Step {} history t) (hs : t.Step m t') {told : Option Nat}
    {run : Run} {claim : RunClaim} {pod stored : Pod} (hw : t.operator.progress? id = some (.waiting
      (.reconcile owner told ⟨key, .creating run claim podName pod⟩) (some (.ok stored)))) :
    Placed t'.operator owner key podName := by
  have hoperator := operator_execution h
  have hown := Operator.ownClaims hoperator
  cases hs.1.fate hw with
  | kept _ hw => exact .created hw
  | given ha => cases ha
  | taken ha =>
    cases ha
    obtain ⟨d, hd⟩ := Operator.employed hoperator hw nofun
    obtain ⟨d', turn, hr, ht, hw'⟩ := hs.1.turns hd
    cases hr with
    | commit =>
      have hentry := Tracker.get?_committed d.tracker claim podName ⟨d.tokens⟩ key
      rw [if_pos (hown _ _ _ hw _ rfl).symm] at hentry
      rw [Controller.tracker_withTracker] at ht
      exact .tracked (by rw [Operator.tracked?, ht, hentry]) rfl rfl
    | commitLate => exact .deleting hw'

/-- The entry of a pod stays until the run is cleaned up after. -/
theorem tracked_placed (h : Execution Step {} history t) (hs : t.Step m t') {e : TrackedRun}
    {token : Token} (he : t.operator.tracked? owner key = some e) (ht : e.cancel = some token)
    (hpod : e.podName = some podName) : Placed t'.operator owner key podName := by
  have hown := Operator.ownClaims (operator_execution h)
  have hclaims := Operator.soundClaims (operator_execution h) owner
  have hover {id : Nat} {told : Option Nat} {stage : Reconcile.Stage}
      {event : (Reconcile.mk key stage).wait.Event} {claim : RunClaim} {e' : TrackedRun}
      (hm : m = .resume id (.reconcile owner told ⟨key, stage⟩) event)
      (hc : stage.claim? = some claim) (he' : t.operator.tracked? owner key = some e')
      (hn : e'.number = claim.number) : False := by
    subst hm
    have hkey : claim.key = key := hown id _ _ hs.1.1 claim hc
    have hnone := hclaims.uncommitted (Operator.claim?_of_resume hs.1 hc)
      (by rw [hkey]; exact he') hn
    rw [he] at he'
    cases he'
    rw [ht] at hnone
    cases hnone
  cases hs.1.alters hown owner key with
  | same hentry => exact .tracked (hentry.trans he) ht hpod
  | claimed hnone =>
    rw [he] at hnone
    cases hnone
  | committed hc hbefore hn => exact (hover rfl hc hbefore hn).elim
  | removed hc => exact cleaned_placed hs.1 hc he hpod
  | released hc hbefore hn => exact (hover rfl hc hbefore hn).elim
  | completed hbefore hentry =>
    rw [he] at hbefore
    cases hbefore
    exact .tracked hentry ht hpod

theorem Placed.step (hp : Placed t.operator owner key podName) (h : Execution Step {} history t)
    (hs : t.Step m t') (hhere : t.store.pods.contains ⟨key.ns, podName⟩ = true)
    (hstay : m.deletes ⟨key.ns, podName⟩ = false) (hstrand : strands owner (t, m) = false) :
    Placed t'.operator owner key podName := by
  cases hp with
  | created hw => exact created_placed h hs hw
  | tracked he ht hpod => exact tracked_placed h hs he ht hpod
  | deleting hw =>
    cases hs.1.fate hw with
    | kept _ hw => exact .deleting hw
    | @given event ha =>
      cases event with
      | ok =>
        rw [Move.deletes] at hstay
        simp [Wait.deletion?] at hstay
      | error e =>
        rw [strands, hhere] at hstrand
        simp at hstrand
    | taken ha => cases ha

theorem placed (h : Execution Step {} history t)
    (hstrand : ∀ moment ∈ history, strands owner moment = false)
    (hhere : t.store.pods.contains pod = true)
    (hc : creator? pod history = some (.reconciler owner key)) :
    pod.ns = key.ns ∧ Placed t.operator owner key pod.name := by
  induction h with
  | start => cases hc
  | @next history s s' m before last ih =>
    rw [creator?_cons] at hc
    cases hm : m.creator? pod with
    | some role =>
      rw [hm, Option.some_or] at hc
      cases hc
      obtain ⟨hns, id, told, run, claim, p, stored, rfl⟩ := last.creation_eq before hm
      cases last.1.fate last.1.1.1 with
      | kept hother => exact absurd rfl hother
      | given _ hw => exact ⟨hns, .created hw⟩
    | none =>
      rw [hm, Option.none_or] at hc
      rcases (last.contains_pod pod).mp hhere with hnew | ⟨hhere, hstay⟩
      · rw [hm] at hnew
        cases hnew
      · obtain ⟨hns, hp⟩ :=
          ih (fun moment hmoment => hstrand moment (List.mem_cons_of_mem _ hmoment)) hhere hc
        have hpod : (⟨key.ns, pod.name⟩ : ObjectKey) = pod := by rw [← hns]
        refine ⟨hns, hp.step before last ?_ ?_ (hstrand _ List.mem_cons_self)⟩
        · rw [hpod]
          exact hhere
        · rw [hpod]
          exact hstay

/-! ## Pods of runs that were cleaned up after -/

/-- A reconciliation whose run was cleaned up after since it has got its claim sets about deleting
the pod that it has got hold of. -/
theorem Step.turned_down {c c' : Operator} {history : List (Operator × Move)} {told : Option Nat}
    {stage : Reconcile.Stage} {event : (Reconcile.mk key stage).wait.Event}
    (h : Execution Operator.Step {} history c)
    (hs : c.Step (.resume id (.reconcile owner told ⟨key, stage⟩) event) c')
    (hf : Reconcile.found? key stage event = some pod)
    (hclean : Operator.cleanedSince owner key id history = true) :
    c'.progress? id = some (.waiting (.reconcile owner told ⟨key, .deleting pod⟩) none) := by
  have hstage : stage ≠ .fetching := by
    rintro rfl
    cases hf
  have hclaim {claim : RunClaim} (hc : stage.claim? = some claim) :
      (c.tracker owner).holds claim = false := by
    have hkey : claim.key = key := Operator.ownClaims h id _ _ hs.1 claim hc
    have hi := Operator.claim?_of_resume hs hc
    rw [Bool.eq_false_iff, ne_eq, Operator.holds_iff h hi, hkey, hclean]
    exact Bool.noConfusion
  obtain ⟨d, hd⟩ := Operator.employed h hs.1 hstage
  obtain ⟨d', turn, hr, _, hw⟩ := hs.turns hd
  rw [Operator.tracker_eq hd] at hclaim
  cases hr with
  | adopt hh | commit hh =>
    rw [hclaim rfl] at hh
    cases hh
  | adoptLate | commitLate =>
    cases hf
    exact hw
  | _ => cases hf

theorem deleted_or_deleting {t₀ : Site} {told : Option Nat} (h : Execution Step t₀ history t)
    (hw : t₀.operator.progress? id =
      some (.waiting (.reconcile owner told ⟨key, .deleting pod⟩) none))
    (hstrand : ∀ moment ∈ history, strands owner moment = false) :
    t.operator.progress? id =
        some (.waiting (.reconcile owner told ⟨key, .deleting pod⟩) none) ∨
      ∃ moment ∈ history, discards id pod moment = true := by
  induction h with
  | start => exact .inl hw
  | @next history s s' m before last ih =>
    rcases ih (fun moment hm => hstrand moment (List.mem_cons_of_mem _ hm)) with
      hw | ⟨moment, hmem, hd⟩
    · cases last.1.fate hw with
      | kept _ hw => exact .inl hw
      | @given event =>
        refine .inr ⟨_, List.mem_cons_self, ?_⟩
        have hno := hstrand _ List.mem_cons_self
        cases event with
        | ok => simp [discards]
        | error e => simpa [discards, strands] using hno
      | taken ha => cases ha
    · exact .inr ⟨moment, List.mem_cons_of_mem _ hmem, hd⟩

end Site

end CertRuns
