import CertRuns.Proofs.Operator.Exclusive
import CertRuns.Proofs.Site.Statuses

/-!
# Runs that stay

A run that nobody removes is found by everyone who asks for it, as long as no call says that it is
missing for another reason.

* `Move.touches` : somebody else than the operator replaces or removes a run, or writes its status;
* `honest` : what a call says to be missing is not there;
* `keeps` : nobody removes the run, and no call says that it is missing although it is there;
* `Present` : the run is there, and no reconciliation has been told that it is gone; kept by every
  move that keeps the run (`Present.step`);
* `not_missed` : meanwhile nobody sees the run missing;
* `one_at_a_time` : so one reconciliation at most is getting a pod for it, if nobody touches it.
-/

namespace CertRuns

open Rehearsal (Work)

/-- Somebody else than the operator replaces or removes the run, or writes its status. -/
def Move.touches (key : ObjectKey) : Move → Bool
  | .outside (.applyRun _ run) => run.key == key
  | .outside (.removeRun k) => k == key
  | .receive _ (.update u) event =>
    u.key == key && ((Work.update u).written? (some event)).isSome
  | .receive _ (.call (.updateRunStatus _)) (.ok stored) => stored.key == key
  | _ => false

/-- A run or a pod that a call says to be missing is not there. -/
def Store.honest (s : Store) : (wait : Wait) → wait.Event → Bool
  | .call (.getRun key), .error e => !(e.isNotFound && s.runs.contains key)
  | .call (.getPod key), .error e => !(e.isNotFound && s.pods.contains key)
  | _, _ => true

/-- A call says that the run is missing although it is there. -/
def Store.denies (s : Store) (key : ObjectKey) : (wait : Wait) → wait.Event → Bool
  | .call (.getRun k), .error e => k == key && e.isNotFound && s.runs.contains k
  | _, _ => false

theorem Store.denies_of_honest {s : Store} {wait : Wait} {event : wait.Event}
    (h : s.honest wait event = true) (key : ObjectKey) : s.denies key wait event = false := by
  cases wait with
  | call r =>
    cases r with
    | getRun k =>
      cases event with
      | ok run => rfl
      | error e =>
        have hmissing : (!(e.isNotFound && s.runs.contains k)) = true := h
        rw [Bool.not_eq_true'] at hmissing
        rw [denies, Bool.and_assoc, hmissing, Bool.and_false]
    | _ => rfl
  | _ => rfl

namespace Site

variable {t t' : Site} {m : Move} {early history : List (Site × Move)} {owner i j : Nat}
  {key : ObjectKey}

/-- What a call says to be missing in a move is not there. -/
def honest : Site × Move → Bool
  | (t, .receive _ work event) => t.store.honest work.wait event
  | _ => true

/-- Nobody removes the run in a move, and no call says that it is missing although it is there. -/
def keeps (key : ObjectKey) : Site × Move → Bool
  | (_, .outside (.removeRun k)) => k != key
  | (t, .receive _ work event) => !t.store.denies key work.wait event
  | _ => true

theorem keeps_of_honest (hm : m.touches key = false) (hh : honest (t, m) = true) :
    keeps key (t, m) = true := by
  cases m with
  | receive id work event =>
    rw [keeps, Store.denies_of_honest hh]
    rfl
  | outside change =>
    cases change with
    | removeRun k => simpa [keeps, Move.touches] using hm
    | _ => rfl
  | _ => rfl

/-- A run stays unless somebody removes it. -/
theorem Step.contains_unremoved (h : t.Step m t') (hm : m ≠ .outside (.removeRun key))
    (hr : t.store.runs.contains key = true) : t'.store.runs.contains key = true := by
  have kept (hrew : t.store.Rewrites t'.store) : t'.store.runs.contains key = true := by
    have hu := congrArg Option.isSome (hrew.uid key)
    rw [Option.isSome_map, Option.isSome_map] at hu
    exact hu.trans hr
  cases m with
  | outside change =>
    have hs : t'.store = change.apply t.store := h.2
    cases change with
    | applyRun stamp run =>
      rw [hs, Table.contains, Outside.get?_applyRun]
      split
      · rfl
      · exact hr
    | removeRun k =>
      have hne : key ≠ k := fun he => hm (he ▸ rfl)
      rw [hs, Table.contains, Outside.get?_removeRun, if_neg hne]
      exact hr
    | setPodStatus k status => exact kept (by rw [hs]; exact t.store.setPodStatus_rewrites k status)
    | forceConflicts | rejectNextPod => rwa [hs]
  | _ => exact kept (h.rewrites fun _ he => by cases he)

theorem Step.contains_run (h : t.Step m t') (hm : m.touches key = false)
    (hr : t.store.runs.contains key = true) : t'.store.runs.contains key = true := by
  refine h.contains_unremoved (fun he => ?_) hr
  rw [he, Move.touches, beq_self_eq_true] at hm
  cases hm

/-- The run is there, and no reconciliation of it has been told that it is gone. -/
structure Present (key : ObjectKey) (t : Site) : Prop where
  stored : t.store.runs.contains key = true
  told {id o : Nat} {told : Option Nat} {e : ClusterError} (hw : t.operator.progress? id =
      some (.waiting (.reconcile o told ⟨key, .fetching⟩) (some (.error e)))) :
    e.isNotFound = false

theorem Present.step (hp : Present key t) (h : t.Step m t') (hk : keeps key (t, m) = true) :
    Present key t' := by
  have hm : m ≠ .outside (.removeRun key) := by
    rintro rfl
    simp [keeps] at hk
  refine ⟨h.contains_unremoved hm hp.stored, fun {id o told e} hw => ?_⟩
  cases h.1.waits hw with
  | kept _ hbefore => exact hp.told hbefore
  | received _ _ he =>
    cases he
    have hdenied : (!(key == key && e.isNotFound && t.store.runs.contains key)) = true := hk
    simpa [hp.stored] using hdenied
  | resumed _ _ he | started _ _ he | spawned _ _ _ he => cases he

theorem Present.not_misses (hp : Present key t) (h : t.Step m t') :
    Operator.misses owner key (t.operator, m) = false := by
  refine Bool.eq_false_iff.mpr fun hmiss => ?_
  obtain ⟨id, told, e, rfl, he⟩ := Operator.misses_eq_true hmiss
  rw [hp.told h.1.1] at he
  cases he

theorem present_of_keeps (hp : Present key t) (h : Execution Step t history t')
    (hk : ∀ moment ∈ history, keeps key moment = true) : Present key t' := by
  induction h with
  | start => exact hp
  | next before last ih =>
    have hearlier := ih fun moment h => hk moment (List.mem_cons_of_mem _ h)
    exact hearlier.step last (hk _ List.mem_cons_self)

theorem present (hp : Present key t) (h : Execution Step t history t')
    (hm : ∀ moment ∈ history, moment.2.touches key = false)
    (hh : ∀ moment ∈ history, honest moment = true) : Present key t' :=
  present_of_keeps hp h fun moment h => keeps_of_honest (hm moment h) (hh moment h)

theorem not_missed (hp : Present key t) (h : Execution Step t history t')
    (hk : ∀ moment ∈ history, keeps key moment = true) :
    ∀ moment ∈ operatorHistory history, Operator.misses owner key moment = false := by
  induction h with
  | start => exact fun moment hmoment => absurd hmoment List.not_mem_nil
  | next before last ih =>
    have hk' := fun moment h => hk moment (List.mem_cons_of_mem _ h)
    intro moment hmoment
    rcases List.mem_cons.mp hmoment with rfl | hmoment
    · exact (present_of_keeps hp before hk').not_misses last
    · exact ih hk' moment hmoment

/-- As long as nobody touches a run that is there, one reconciliation of it at most is getting a pod,
if there was none at first. -/
theorem one_at_a_time (hearly : Execution Step {} early t) (hp : Present key t)
    (hfree : ∀ i, ¬ t.operator.engaged owner key i) (h : Execution Step t history t')
    (hm : ∀ moment ∈ history, moment.2.touches key = false)
    (hh : ∀ moment ∈ history, honest moment = true) :
    Operator.Exclusive owner key t'.operator :=
  Operator.exclusive (operator_execution hearly) hfree (h.map Site.operator fun hs => hs.1)
    (not_missed hp h fun moment h => keeps_of_honest (hm moment h) (hh moment h))

end Site

end CertRuns
