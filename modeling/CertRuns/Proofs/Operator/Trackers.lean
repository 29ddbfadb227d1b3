import CertRuns.Proofs.Operator.Steps

/-!
# What a move does to the trackers of an operator

* `Alike` : two operators whose controllers have the same trackers and tokens;
* `Handles` : what a move does to the tracker and the tokens of a controller; `Step.handles` :
  every move does one of these.
-/

namespace CertRuns.Operator

open Rehearsal (Work Result)

variable {c c' : Operator} {m : Move} {owner : Nat}

theorem tracker_eq {d : Controller} (h : c.controllers[owner]? = some d) :
    c.tracker owner = d.tracker := by
  rw [tracker, h, Option.map_some, Option.getD_some]

theorem tokens_eq {d : Controller} (h : c.controllers[owner]? = some d) :
    c.tokens owner = d.tokens := by
  rw [tokens, h, Option.map_some, Option.getD_some]

/-- The controllers of `c'` are those of `c`, up to what is neither tracker nor tokens. -/
def Alike (c c' : Operator) : Prop :=
  ∀ owner, c'.tracker owner = c.tracker owner ∧ c'.tokens owner = c.tokens owner

theorem Alike.of_eq (h : c'.controllers = c.controllers) : Alike c c' := by
  intro owner
  unfold tracker tokens
  rw [h]
  exact ⟨rfl, rfl⟩

/-- A controller that is put into the place of another one. -/
theorem set_controller (owner : Nat) {o : Nat} {d d' : Controller} (hd : c.controllers[o]? = some d)
    (h : c'.controllers = c.controllers.set o d') :
    c'.tracker owner = (if owner = o then d'.tracker else c.tracker owner) ∧
      c'.tokens owner = if owner = o then d'.tokens else c.tokens owner := by
  have ho : o < c.controllers.length := (List.getElem?_eq_some_iff.mp hd).1
  unfold tracker tokens
  rw [h]
  by_cases hi : owner = o
  · subst hi
    rw [if_pos rfl, if_pos rfl, List.getElem?_set_self ho]
    exact ⟨rfl, rfl⟩
  · rw [if_neg hi, if_neg hi, List.getElem?_set_ne (fun h => hi h.symm)]
    exact ⟨rfl, rfl⟩

theorem Alike.of_set {o : Nat} {d d' : Controller} (hd : c.controllers[o]? = some d)
    (h : c'.controllers = c.controllers.set o d') (ht : d'.tracker = d.tracker)
    (hn : d'.tokens = d.tokens) : Alike c c' := by
  intro owner
  obtain ⟨h1, h2⟩ := set_controller owner hd h
  rw [h1, h2]
  by_cases ho : owner = o
  · subst ho
    rw [if_pos rfl, if_pos rfl, ht, hn, tracker_eq hd, tokens_eq hd]
    exact ⟨rfl, rfl⟩
  · rw [if_neg ho, if_neg ho]
    exact ⟨rfl, rfl⟩

theorem alike_install (settings : ControllerSettings) (retry : RetryPolicy) :
    Alike c (c.next (.install settings retry)) := by
  intro owner
  unfold tracker tokens
  rw [next]
  rcases Nat.lt_trichotomy owner c.controllers.length with h | h | h
  · rw [List.getElem?_append_left h]
    exact ⟨rfl, rfl⟩
  · subst h
    rw [List.getElem?_concat_length, List.getElem?_eq_none (Nat.le_refl _)]
    exact ⟨rfl, rfl⟩
  · rw [List.getElem?_eq_none (by rw [List.length_append]; exact h),
      List.getElem?_eq_none (Nat.le_of_lt h)]
    exact ⟨rfl, rfl⟩

theorem alike_shutDown (o : Nat) : Alike c (c.next (.shutDown o)) := by
  intro owner
  unfold tracker tokens
  rw [next]
  by_cases h : o = owner
  · subst h
    rw [List.getElem?_modify_eq]
    cases c.controllers[o]? with
    | none => exact ⟨rfl, rfl⟩
    | some d => exact ⟨rfl, rfl⟩
  · rw [List.getElem?_modify_ne _ _ h]
    exact ⟨rfl, rfl⟩

theorem alike_watcher (w : Watcher) (d : Controller) (now : Instant) (event : w.wait.Event) :
    (w.resume d now event).1.tracker = d.tracker ∧ (w.resume d now event).1.tokens = d.tokens := by
  obtain ⟨number, ns, token, ticker, known, initial, seeded, stage⟩ := w
  cases stage with
  | resting =>
    simp only [Watcher.resume, Watcher.afterPause]
    cases event with
    | cancelled | deadline => exact ⟨rfl, rfl⟩
    | tick =>
      simp only
      split <;> exact ⟨rfl, rfl⟩
  | seeding =>
    cases event with
    | error e => exact ⟨rfl, rfl⟩
    | ok pods => exact ⟨rfl, rfl⟩
  | listing => exact ⟨rfl, rfl⟩

/-- What a move does to the tracker and the tokens of a controller. -/
inductive Handles (c : Operator) (owner : Nat) (c' : Operator) : Move → Prop
  /-- Nothing. -/
  | idle {m : Move} (ht : c'.tracker owner = c.tracker owner)
      (hn : c'.tokens owner = c.tokens owner) : Handles c owner c' m
  /-- A reconciliation goes on. -/
  | reconcile {id : Nat} {told : Option Nat} {key : ObjectKey} {stage : Reconcile.Stage}
      {event : (Reconcile.mk key stage).wait.Event} {d d' : Controller} {turn : Reconcile.Turn}
      (hd : c.controllers[owner]? = some d)
      (hr : Reconcile.Resumes d c.clock key stage event d' turn)
      (ht : c'.tracker owner = d'.tracker) (hn : c'.tokens owner = d'.tokens) :
      Handles c owner c' (.resume id (.reconcile owner told ⟨key, stage⟩) event)
  /-- A monitor comes to its end and marks its run as completed. -/
  | complete {id : Nat} {key : ObjectKey} {u : StatusUpdate} {event : u.wait.Event}
      {result : Except ClusterError Run} (hu : u.resume c.clock event = .ended result)
      (ht : c'.tracker owner = (c.tracker owner).complete key)
      (hn : c'.tokens owner = c.tokens owner) :
      Handles c owner c' (.resume id (.monitor owner ⟨key, .recording u⟩) event)

theorem Alike.handles (h : Alike c c') : Handles c owner c' m := .idle (h owner).1 (h owner).2

theorem same_handles {m : Move} (h : (c.next m).controllers = c.controllers) :
    Handles c owner (c.next m) m := (Alike.of_eq h).handles

theorem watcher_handles (id o : Nat) (w : Watcher) (event : w.wait.Event) :
    Handles c owner (c.next (.resume id (.watcher o w) event)) (.resume id (.watcher o w) event) := by
  cases hd : c.controllers[o]? with
  | none =>
    apply same_handles
    simp only [next, follow, Work.resume, hd]
  | some d =>
    obtain ⟨ht, hn⟩ := alike_watcher w d c.clock event
    have he : (c.next (.resume id (.watcher o w) event)).controllers =
        c.controllers.set o (w.resume d c.clock event).1 := by
      simp only [next, follow, Work.resume, hd]
      rcases w.resume d c.clock event with ⟨e, _ | _⟩ <;> rfl
    exact (Alike.of_set hd he ht hn).handles

theorem seeding_handles (id o : Nat) (ns : String) (reply : Except ClusterError (List Pod)) :
    Handles c owner (c.next (.resume id (.seeding o ns) reply))
      (.resume id (.seeding o ns) reply) := by
  cases reply with
  | error e => exact same_handles rfl
  | ok pods =>
    cases hd : c.controllers[o]? with
    | none =>
      apply same_handles
      simp only [next, follow, Work.resume, hd]
    | some d =>
      have he : (c.next (.resume id (.seeding o ns) (.ok pods))).controllers =
          c.controllers.set o (d.seed pods).1 := by
        simp only [next, follow, Work.resume, hd]
      have ht : (d.seed pods).1.tracker = d.tracker := rfl
      exact (Alike.of_set hd he ht rfl).handles

theorem reconcile_handles (id o : Nat) (told : Option Nat) (key : ObjectKey)
    (stage : Reconcile.Stage) (event : (Reconcile.mk key stage).wait.Event) :
    Handles c owner (c.next (.resume id (.reconcile o told ⟨key, stage⟩) event))
      (.resume id (.reconcile o told ⟨key, stage⟩) event) := by
  have hr := reconciles c.controllers c.clock o told key stage event
  generalize hs : (Work.reconcile o told ⟨key, stage⟩).resume c.controllers c.clock event =
    step at hr
  have hc : (c.next (.resume id (.reconcile o told ⟨key, stage⟩) event)).controllers =
      step.controllers := by
    rw [← hs]
    rfl
  cases hr with
  | orphan hd => exact same_handles hc
  | turns hd hr ht hn =>
    obtain ⟨h1, h2⟩ := set_controller owner hd hc
    by_cases ho : owner = o
    · subst ho
      rw [if_pos rfl] at h1 h2
      exact .reconcile hd hr (h1.trans ht) (h2.trans hn)
    · rw [if_neg ho] at h1 h2
      exact .idle h1 h2

theorem monitor_handles (id o : Nat) (key : ObjectKey) (stage : Monitor.Stage)
    (event : (Monitor.mk key stage).wait.Event) :
    Handles c owner (c.next (.resume id (.monitor o ⟨key, stage⟩) event))
      (.resume id (.monitor o ⟨key, stage⟩) event) := by
  have hr := follows c.controllers c.clock o key stage event
  generalize hs : (Work.monitor o ⟨key, stage⟩).resume c.controllers c.clock event = step at hr
  have hc : (c.next (.resume id (.monitor o ⟨key, stage⟩) event)).controllers =
      step.controllers := by
    rw [← hs]
    rfl
  cases hr with
  | orphan hd => exact same_handles hc
  | goes hd hr =>
    cases hr with
    | waiting | finished | recording => exact (Alike.of_set hd hc rfl rfl).handles
  | ends hd hr =>
    cases hr with
    | cancelled => exact (Alike.of_set hd hc rfl rfl).handles
    | recorded hu =>
      obtain ⟨h1, h2⟩ := set_controller owner hd hc
      by_cases ho : owner = o
      · subst ho
        rw [if_pos rfl] at h1 h2
        refine .complete hu (h1.trans ?_) (h2.trans (tokens_eq hd).symm)
        rw [tracker_eq hd]
        rfl
      · rw [if_neg ho] at h1 h2
        exact .idle h1 h2

theorem Step.handles (h : c.Step m c') (owner : Nat) : Handles c owner c' m := by
  obtain ⟨_, rfl⟩ := h
  cases m with
  | pass | raise | start | receive | outside => exact same_handles rfl
  | install settings retry => exact (alike_install settings retry).handles
  | shutDown o => exact (alike_shutDown o).handles
  | resume id work event =>
    cases work with
    | call => exact same_handles rfl
    | update u =>
      apply same_handles
      simp only [next, follow, Work.resume]
      split <;> rfl
    | completion w =>
      apply same_handles
      simp only [next, follow, Work.resume]
      split <;> rfl
    | harvest w =>
      apply same_handles
      simp only [next, follow, Work.resume]
      split <;> rfl
    | watcher o w => exact watcher_handles id o w event
    | seeding o ns => exact seeding_handles id o ns event
    | reconcile o told r => exact reconcile_handles id o told r.key r.stage event
    | monitor o r => exact monitor_handles id o r.key r.stage event

end CertRuns.Operator
