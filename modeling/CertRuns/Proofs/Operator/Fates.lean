import CertRuns.Proofs.Operator.Trackers

/-!
# What becomes of a task

* `Fate` : what a move makes of a task that waits; `Step.fate` : it is one of these;
* `Step.controller` : controllers stay;
* `employed` : the controller of a reconciliation that has gone on since its read exists;
* `Step.turns` : what comes of a reconciliation that goes on under its controller;
* `outcome?` : what a reconciliation has led to; `Step.outcome` : how it has led to that.
-/

namespace CertRuns.Operator

open Rehearsal (Work)

variable {c c' : Operator} {m : Move} {owner : Nat} {history : List (Operator × Move)}

/-! ## Tasks that wait -/

/-- What a move makes of the task with number `i`, which waits. -/
inductive Fate (c : Operator) (i : Nat) (work : Work) (answer : Option work.wait.Event)
    (c' : Operator) : Move → Prop
  /-- It waits on. -/
  | kept {m : Move} (hm : m.subject? ≠ some i) (h : c'.progress? i = some (.waiting work answer)) :
      Fate c i work answer c' m
  /-- It is given what it waits for. -/
  | given {event : work.wait.Event} (ha : answer = none)
      (h : c'.progress? i = some (.waiting work (some event))) :
      Fate c i work answer c' (.receive i work event)
  /-- It goes on with what it was given. -/
  | taken {event : work.wait.Event} (ha : answer = some event) :
      Fate c i work answer c' (.resume i work event)

theorem Step.progress?_kept (h : c.Step m c') {i : Nat} (hm : m.subject? ≠ some i) {p : Progress}
    (hp : c.progress? i = some p) : c'.progress? i = some p := by
  obtain ⟨t, ht, hpt⟩ := progress?_eq_some.mp hp
  obtain ⟨t', ht', _⟩ := h.origin ht
  cases h.comes ht' with
  | kept _ hs =>
    rw [ht] at hs
    cases hs
    exact progress?_eq_some.mpr ⟨t, ht', hpt⟩
  | received | resumed => exact absurd rfl hm
  | started hi | spawned hi =>
    rw [ht] at hi
    cases hi

theorem Step.fate (h : c.Step m c') {i : Nat} {work : Work} {answer : Option work.wait.Event}
    (hw : c.progress? i = some (.waiting work answer)) : Fate c i work answer c' m := by
  by_cases hm : m.subject? = some i
  · cases m with
    | receive id other event =>
      cases hm
      have hp := h.1.1
      rw [hw] at hp
      cases hp
      refine .given rfl ?_
      rw [h.2]
      exact progress?_receive_self hw
    | resume id other event =>
      cases hm
      have hp := h.1
      rw [Enabled, hw] at hp
      cases hp
      exact .taken rfl
    | _ => cases hm
  · exact .kept hm (h.progress?_kept hm hw)

/-! ## Controllers -/

theorem length_resume (cs : List Controller) (now : Instant) (work : Work)
    (event : work.wait.Event) : (work.resume cs now event).controllers.length = cs.length := by
  cases work with
  | call => rfl
  | update | completion | harvest =>
    simp only [Work.resume]
    split <;> rfl
  | reconcile owner told r =>
    have hr := reconciles cs now owner told r.key r.stage event
    generalize (Work.reconcile owner told ⟨r.key, r.stage⟩).resume cs now event = step at hr
    cases hr with
    | orphan => rfl
    | turns => exact List.length_set
  | monitor owner m =>
    have hr := follows cs now owner m.key m.stage event
    generalize (Work.monitor owner ⟨m.key, m.stage⟩).resume cs now event = step at hr
    cases hr with
    | orphan => rfl
    | goes | ends => exact List.length_set
  | watcher owner w =>
    simp only [Work.resume]
    cases cs[owner]? with
    | none => rfl
    | some d =>
      simp only
      rcases w.resume d now event with ⟨d', _ | _⟩ <;> exact List.length_set
  | seeding owner ns =>
    cases event with
    | error e => rfl
    | ok pods =>
      simp only [Work.resume]
      cases cs[owner]? with
      | none => rfl
      | some d => exact List.length_set

theorem Step.controller (h : c.Step m c') {d : Controller} (hd : c.controllers[owner]? = some d) :
    ∃ d', c'.controllers[owner]? = some d' := by
  have hlt : owner < c.controllers.length := (List.getElem?_eq_some_iff.mp hd).1
  have hle : c.controllers.length ≤ c'.controllers.length := by
    obtain ⟨_, rfl⟩ := h
    cases m with
    | install =>
      rw [show (c.next _).controllers = c.controllers ++ [_] from rfl, List.length_append]
      exact Nat.le_add_right _ _
    | shutDown o => exact Nat.le_of_eq (List.length_modify _ _ _).symm
    | resume id work event => exact Nat.le_of_eq (length_resume _ _ _ _).symm
    | _ => exact Nat.le_refl _
  exact ⟨_, List.getElem?_eq_getElem (Nat.lt_of_lt_of_le hlt hle)⟩

theorem employed (h : Execution Step {} history c) {id : Nat} {told : Option Nat} {key : ObjectKey}
    {stage : Reconcile.Stage} {answer : Option (Reconcile.mk key stage).wait.Event}
    (hw : c.progress? id = some (.waiting (.reconcile owner told ⟨key, stage⟩) answer))
    (hs : stage ≠ .fetching) : ∃ d, c.controllers[owner]? = some d := by
  induction h generalizing id told key stage with
  | start => cases hw
  | next before last ih =>
    cases last.waits hw with
    | kept _ hbefore | received hbefore =>
      obtain ⟨d, hd⟩ := ih hbefore hs
      exact last.controller hd
    | resumed _ hg =>
      cases hg with
      | reconcile hd => exact last.controller hd
    | started _ hm =>
      cases hm
      exact absurd rfl hs
    | spawned _ _ hn =>
      cases hn
      exact absurd rfl hs

theorem Step.turns {id : Nat} {told : Option Nat} {key : ObjectKey} {stage : Reconcile.Stage}
    {event : (Reconcile.mk key stage).wait.Event} {d : Controller}
    (h : c.Step (.resume id (.reconcile owner told ⟨key, stage⟩) event) c')
    (hd : c.controllers[owner]? = some d) :
    ∃ d' turn, Reconcile.Resumes d c.clock key stage event d' turn ∧
      c'.tracker owner = d'.tracker ∧ c'.progress? id = some (match turned owner told turn with
        | .going work => .waiting work none
        | .ended result => .ended result) := by
  obtain ⟨he, rfl⟩ := h
  have hr := reconciles c.controllers c.clock owner told key stage event
  have hp := progress?_resume_self he
  have hcs : (c.next (.resume id (.reconcile owner told ⟨key, stage⟩) event)).controllers =
      ((Work.reconcile owner told ⟨key, stage⟩).resume c.controllers c.clock event).controllers :=
    rfl
  generalize (Work.reconcile owner told ⟨key, stage⟩).resume c.controllers c.clock event = step
    at hr hp hcs
  cases hr with
  | orphan hnone =>
    rw [hd] at hnone
    cases hnone
  | @turns _ d' _ turn hsome hr ht =>
    rw [hd] at hsome
    cases hsome
    exact ⟨d', turn, hr, (set_controller owner hd hcs).1.trans ((if_pos rfl).trans ht), hp⟩

/-! ## Outcomes -/

/-- What a reconciliation has led to. -/
def outcome? (c : Operator) (id : Nat) : Option Outcome :=
  match c.progress? id with
  | some (.ended (.reconciled (.ok outcome))) => some outcome
  | _ => none

theorem outcome?_eq_some {id : Nat} {outcome : Outcome} :
    c.outcome? id = some outcome ↔
      c.progress? id = some (.ended (.reconciled (.ok outcome))) := by
  constructor
  · intro h
    unfold outcome? at h
    split at h
    · rename_i hp
      cases h
      exact hp
    · cases h
  · intro h
    rw [outcome?, h]

/-- How a task ends with the result of a reconciliation. -/
inductive Concludes (now : Instant) (result : Except ClusterError Outcome) :
    (work : Work) → work.wait.Event → Prop
  | reconcile {owner : Nat} {told : Option Nat} {key : ObjectKey} {stage : Reconcile.Stage}
      {event : (Reconcile.mk key stage).wait.Event} {d d' : Controller} {monitor : Option Monitor}
      (hr : Reconcile.Resumes d now key stage event d' (.ended result monitor)) :
      Concludes now result (.reconcile owner told ⟨key, stage⟩) event

theorem concludes {cs : List Controller} {now : Instant} {work : Work} {event : work.wait.Event}
    {result : Except ClusterError Outcome}
    (h : (work.resume cs now event).next = .ended (.reconciled result)) :
    Concludes now result work event := by
  cases ends h with
  | reconcile hr => exact .reconcile hr

theorem Step.outcome (h : c.Step m c') {id : Nat} {outcome : Outcome}
    (ho : c'.outcome? id = some outcome) :
    c.outcome? id = some outcome ∨ ∃ (work : Work) (event : work.wait.Event),
      m = .resume id work event ∧ Concludes c.clock (.ok outcome) work event := by
  obtain ⟨t', ht', hp⟩ := progress?_eq_some.mp (outcome?_eq_some.mp ho)
  cases h.comes ht' with
  | kept _ ht => exact .inl (outcome?_eq_some.mpr (progress?_eq_some.mpr ⟨t', ht, hp⟩))
  | received _ _ _ he | started _ _ he | spawned _ _ _ _ he =>
    subst he
    cases hp
  | @resumed t work event ht hw he =>
    subst he
    unfold Thread.proceed at hp
    split at hp
    · cases hp
    · rename_i hnext
      cases hp
      exact .inr ⟨work, event, rfl, concludes hnext⟩

end CertRuns.Operator
