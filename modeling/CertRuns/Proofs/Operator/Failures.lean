import CertRuns.Proofs.Operator.Trackers

/-!
# Failures that watchers are told

A reconciliation that fails leaves a note for the watcher that it was started by, and the watcher
takes its notes when it begins a listing.

* `fails?`, `begins?` : a reconciliation fails; a watcher begins a listing;
* `reported` : a reconciliation of a run has failed since its watcher last began a listing;
* `mem_failures` : the notes that a controller keeps are just these.
-/

namespace CertRuns.Operator

open Rehearsal (Work)

variable {c c' : Operator} {m : Move} {owner number : Nat} {key : ObjectKey}
  {history : List (Operator × Move)}

def failures (c : Operator) (owner : Nat) : List (Nat × ObjectKey) :=
  (c.controllers[owner]?.map (·.failures)).getD []

/-- The watcher that has to be told, and the run, of a reconciliation that fails in a move. -/
def fails? (owner : Nat) : Operator × Move → Option (Nat × ObjectKey)
  | (c, .resume _ (.reconcile o told r) event) =>
    match ((Work.reconcile o told r).resume c.controllers c.clock event).next with
    | .ended (.reconciled (.error _)) => if o = owner then told.map (·, r.key) else none
    | _ => none
  | _ => none

def listing? (w : Watcher) : Option Nat :=
  match w.stage with
  | .listing => some w.number
  | _ => none

def begins? (owner : Nat) : Operator × Move → Option Nat
  | (c, .resume _ (.watcher o w) event) =>
    match ((Work.watcher o w).resume c.controllers c.clock event).next with
    | .going (.watcher _ w) => if o = owner then listing? w else none
    | _ => none
  | _ => none

def reported (owner number : Nat) (key : ObjectKey) : List (Operator × Move) → Bool
  | [] => false
  | moment :: earlier =>
    begins? owner moment != some number &&
      (fails? owner moment == some (number, key) || reported owner number key earlier)

/-! ## One move -/

theorem failures_eq {d : Controller} (h : c.controllers[owner]? = some d) :
    c.failures owner = d.failures := by
  rw [failures, h, Option.map_some, Option.getD_some]

theorem failures_set {o : Nat} {d d' : Controller} (hd : c.controllers[o]? = some d)
    (h : c'.controllers = c.controllers.set o d') :
    c'.failures owner = if o = owner then d'.failures else c.failures owner := by
  have ho : o < c.controllers.length := (List.getElem?_eq_some_iff.mp hd).1
  unfold failures
  rw [h]
  by_cases hi : o = owner
  · subst hi
    rw [if_pos rfl, List.getElem?_set_self ho]
    rfl
  · rw [if_neg hi, List.getElem?_set_ne hi]

def Notes (owner : Nat) (c : Operator) (m : Move) (c' : Operator) : Prop :=
  ∀ number key, (number, key) ∈ c'.failures owner ↔ begins? owner (c, m) ≠ some number ∧
    (fails? owner (c, m) = some (number, key) ∨ (number, key) ∈ c.failures owner)

theorem Notes.kept (hc : c'.failures owner = c.failures owner) (hb : begins? owner (c, m) = none)
    (hf : fails? owner (c, m) = none) : Notes owner c m c' := by
  intro number key
  rw [hc, hb, hf]
  simp

theorem Notes.of_set {o : Nat} {d d' : Controller} (hd : c.controllers[o]? = some d)
    (h : c'.controllers = c.controllers.set o d') (hd' : d'.failures = d.failures)
    (hb : begins? owner (c, m) = none) (hf : fails? owner (c, m) = none) : Notes owner c m c' := by
  refine .kept ?_ hb hf
  rw [failures_set hd h]
  split
  · rename_i ho
    rw [← ho, hd', failures_eq hd]
  · rfl

theorem failures_resumes {d d' : Controller} {now : Instant} {stage : Reconcile.Stage}
    {event : (Reconcile.mk key stage).wait.Event} {turn : Reconcile.Turn}
    (h : Reconcile.Resumes d now key stage event d' turn) : d'.failures = d.failures := by
  have hraise (d : Controller) (token : Option Token) :
      (d.raise? token).failures = d.failures := by cases token <;> rfl
  have hsaw (d : Controller) (name : String) : (d.sawPodName name).failures = d.failures := by
    unfold Controller.sawPodName
    split <;> rfl
  cases h with
  | dropped | cleaning => rw [hraise]; rfl
  | adopt | adoptLate => exact hsaw _ _
  | _ => rfl

theorem reconcile_notes (id o : Nat) (told : Option Nat) {k : ObjectKey} {stage : Reconcile.Stage}
    (event : (Reconcile.mk k stage).wait.Event) :
    Notes owner c (.resume id (.reconcile o told ⟨k, stage⟩) event)
      (c.next (.resume id (.reconcile o told ⟨k, stage⟩) event)) := by
  have hr := reconciles c.controllers c.clock o told k stage event
  have hc : (c.next (.resume id (.reconcile o told ⟨k, stage⟩) event)).controllers =
      ((Work.reconcile o told ⟨k, stage⟩).resume c.controllers c.clock event).controllers := rfl
  have hf : fails? owner (c, .resume id (.reconcile o told ⟨k, stage⟩) event) =
      match ((Work.reconcile o told ⟨k, stage⟩).resume c.controllers c.clock event).next with
      | .ended (.reconciled (.error _)) => if o = owner then told.map (·, k) else none
      | _ => none := rfl
  generalize (Work.reconcile o told ⟨k, stage⟩).resume c.controllers c.clock event = step
    at hr hc hf
  cases hr with
  | orphan => exact .kept (by unfold failures; rw [hc]) rfl hf
  | @turns d d' d'' turn hd hr _ _ _ hnoted =>
    intro number key
    rw [failures_set hd hc, hnoted, failures_resumes hr, hf]
    have hb : begins? owner (c, .resume id (.reconcile o told ⟨k, stage⟩) event) = none := rfl
    rw [hb]
    by_cases ho : o = owner
    · subst ho
      rw [if_pos rfl, failures_eq hd]
      cases turn with
      | going r => simp [turned, noted]
      | ended result monitor =>
        cases result with
        | ok outcome => simp [turned, noted]
        | error e =>
          cases told with
          | none => simp [turned, noted]
          | some n => simp [turned, noted, or_comm, eq_comm]
    · rw [if_neg ho]
      cases turn with
      | going r => simp [turned]
      | ended result monitor =>
        cases result with
        | ok outcome => simp [turned]
        | error e => simp [turned, ho]

theorem watcher_notes (id o : Nat) (w : Watcher) (event : w.wait.Event) :
    Notes owner c (.resume id (.watcher o w) event) (c.next (.resume id (.watcher o w) event)) := by
  have hr := watches c.controllers c.clock o w event
  have hc : (c.next (.resume id (.watcher o w) event)).controllers =
      ((Work.watcher o w).resume c.controllers c.clock event).controllers := rfl
  have hb : begins? owner (c, .resume id (.watcher o w) event) =
      match ((Work.watcher o w).resume c.controllers c.clock event).next with
      | .going (.watcher _ w) => if o = owner then listing? w else none
      | _ => none := rfl
  have hf : fails? owner (c, .resume id (.watcher o w) event) = none := rfl
  generalize (Work.watcher o w).resume c.controllers c.clock event = step at hr hc hb
  have taken {d d' : Controller} (hd : c.controllers[o]? = some d)
      (hset : (c.next (.resume id (.watcher o w) event)).controllers = c.controllers.set o d')
      (hd' : d'.failures = d.failures.filter (·.1 != w.number))
      (hb : begins? owner (c, .resume id (.watcher o w) event) =
        if o = owner then some w.number else none) :
      Notes owner c (.resume id (.watcher o w) event)
        (c.next (.resume id (.watcher o w) event)) := by
    intro number key
    rw [failures_set hd hset, hf, hb, hd']
    by_cases ho : o = owner
    · subst ho
      rw [if_pos rfl, if_pos rfl, failures_eq hd, List.mem_filter, bne_iff_ne]
      simp only [reduceCtorEq, false_or, ne_eq, Option.some.injEq]
      exact ⟨fun ⟨h, hn⟩ => ⟨fun he => hn he.symm, h⟩, fun ⟨hn, h⟩ => ⟨h, fun he => hn he.symm⟩⟩
    · rw [if_neg ho, if_neg ho]
      simp
  cases hr with
  | orphan => exact .kept (by unfold failures; rw [hc]) hb hf
  | ends hd hr =>
    cases hr with
    | stopped => exact .of_set hd hc rfl hb hf
  | goes hd hr =>
    cases hr with
    | looks | unseeded | lists | unlisted => exact .of_set hd hc rfl (hb.trans (ite_self _)) hf
    | begins | seeds => exact taken hd hc rfl hb

theorem failures_install (settings : ControllerSettings) (retry : RetryPolicy) :
    (c.next (.install settings retry)).failures owner = c.failures owner := by
  unfold failures
  rw [next]
  rcases Nat.lt_trichotomy owner c.controllers.length with h | h | h
  · rw [List.getElem?_append_left h]
  · subst h
    rw [List.getElem?_concat_length, List.getElem?_eq_none (Nat.le_refl _)]
    rfl
  · rw [List.getElem?_eq_none (by rw [List.length_append]; exact h),
      List.getElem?_eq_none (Nat.le_of_lt h)]

theorem failures_shutDown (o : Nat) :
    (c.next (.shutDown o)).failures owner = c.failures owner := by
  unfold failures
  rw [next]
  by_cases h : o = owner
  · subst h
    rw [List.getElem?_modify_eq]
    cases c.controllers[o]? <;> rfl
  · rw [List.getElem?_modify_ne _ _ h]

theorem Step.notes (h : c.Step m c') (owner : Nat) : Notes owner c m c' := by
  obtain ⟨_, rfl⟩ := h
  cases m with
  | pass | raise | start | receive | outside => exact .kept rfl rfl rfl
  | install settings retry => exact .kept (failures_install settings retry) rfl rfl
  | shutDown o => exact .kept (failures_shutDown o) rfl rfl
  | resume id work event =>
    cases work with
    | call => exact .kept rfl rfl rfl
    | update | completion | harvest =>
      refine .kept ?_ rfl rfl
      unfold failures
      simp only [next, follow, Work.resume]
      split <;> rfl
    | reconcile o told r => exact reconcile_notes id o told event
    | watcher o w => exact watcher_notes id o w event
    | monitor o r =>
      obtain ⟨k, stage⟩ := r
      have hr := follows c.controllers c.clock o k stage event
      have hc : (c.next (.resume id (.monitor o ⟨k, stage⟩) event)).controllers =
          ((Work.monitor o ⟨k, stage⟩).resume c.controllers c.clock event).controllers := rfl
      generalize (Work.monitor o ⟨k, stage⟩).resume c.controllers c.clock event = step at hr hc
      cases hr with
      | orphan => exact .kept (by unfold failures; rw [hc]) rfl rfl
      | goes hd hr => cases hr <;> exact .of_set hd hc rfl rfl rfl
      | ends hd hr => cases hr <;> exact .of_set hd hc rfl rfl rfl
    | seeding o ns =>
      cases event with
      | error e => exact .kept rfl rfl rfl
      | ok pods =>
        cases hd : c.controllers[o]? with
        | none =>
          refine .kept ?_ rfl rfl
          unfold failures
          simp only [next, follow, Work.resume, hd]
        | some d =>
          have hset : (c.next (.resume id (.seeding o ns) (.ok pods))).controllers =
              c.controllers.set o (d.seed pods).1 := by
            simp only [next, follow, Work.resume, hd]
          exact .of_set hd hset rfl rfl rfl

/-- The notes that a controller keeps are those of the failures that its watchers have not yet been
told. -/
theorem mem_failures (h : Execution Step {} history c) :
    (number, key) ∈ c.failures owner ↔ reported owner number key history = true := by
  induction h with
  | start => exact ⟨nofun, nofun⟩
  | next before last ih =>
    rw [last.notes owner number key, ih, reported]
    simp

end CertRuns.Operator
