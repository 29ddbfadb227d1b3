import CertRuns.Proofs.Control.Monitor
import CertRuns.Proofs.Control.Reconcile
import CertRuns.Proofs.Control.Watcher
import CertRuns.Proofs.Operator.Basic

/-!
# What a move does to the tasks of an operator

* `Comes` : where a task after a move comes from; `Step.comes` : every task comes from somewhere;
* `unmoved` : a task that is not there has not moved;
* `progress?_receive_self`, `progress?_resume_self`, `progress?_started` : how far tasks have come;
* `countP_receive`, `countP_resume` : how the number of tasks with a property changes;
* `Reconciles`, `Monitors`, `Watches` : the steps of reconciliations, monitors and watchers;
* `Goes`, `Spawns`, `Ends` : what a task goes on as, which tasks it starts, what comes out of it;
* `Begins` : how a task has begun; `Waits` : why it waits;
* `waiting_induction` : invariants of what tasks wait for.

An invariant of single tasks is proved by cases on `Waits`, and then on `Goes` or `Spawns`.
-/

namespace CertRuns.Operator

open Rehearsal (Work Result)

variable {c c' : Operator} {m : Move} {owner : Nat}

/-! ## Tasks -/

theorem progress?_eq_some {id : Nat} {p : Progress} :
    c.progress? id = some p ↔ ∃ t, c.threads[id]? = some t ∧ t.progress = p := by
  unfold progress?
  rw [Option.map_eq_some_iff]

/-- What is so of all tasks is so of one that has come to `p`. -/
theorem all_progress {q : Thread → Bool} (h : c.threads.all q = true) {id : Nat} {p : Progress}
    (hp : c.progress? id = some p) : ∃ t, t.progress = p ∧ q t = true := by
  obtain ⟨t, ht, hp⟩ := progress?_eq_some.mp hp
  exact ⟨t, hp, List.all_eq_true.mp h t (List.mem_of_getElem? ht)⟩

/-- Where the task with number `i` after a move comes from. -/
inductive Comes (c : Operator) (i : Nat) (t' : Thread) : Move → Prop
  /-- It has been there before, just so. -/
  | kept {m : Move} (hm : m.subject? ≠ some i) (h : c.threads[i]? = some t') : Comes c i t' m
  /-- It has been given what it waited for. -/
  | received {t : Thread} {work : Work} {event : work.wait.Event} (ht : c.threads[i]? = some t)
      (hw : t.progress = .waiting work none) (ha : c.Admits work work.wait event)
      (h : t' = t.receive work event) : Comes c i t' (.receive i work event)
  /-- It has gone on. -/
  | resumed {t : Thread} {work : Work} {event : work.wait.Event} (ht : c.threads[i]? = some t)
      (hw : t.progress = .waiting work (some event))
      (h : t' = t.proceed (work.resume c.controllers c.clock event).next) :
      Comes c i t' (.resume i work event)
  /-- It was started from outside. -/
  | started {work : Work} (hi : c.threads[i]? = none) (hw : c.MayStart work)
      (h : t' = .begin none work) : Comes c i t' (.start work)
  /-- It was started by another task. -/
  | spawned {id : Nat} {t : Thread} {work new : Work} {event : work.wait.Event}
      (hi : c.threads[i]? = none) (ht : c.threads[id]? = some t)
      (hw : t.progress = .waiting work (some event))
      (hn : new ∈ (work.resume c.controllers c.clock event).started)
      (h : t' = .begin (some id) new) : Comes c i t' (.resume id work event)

theorem getElem?_modify_cases {l : List Thread} {id i : Nat} {f : Thread → Thread} {t' : Thread}
    (h : (l.modify id f)[i]? = some t') :
    id ≠ i ∧ l[i]? = some t' ∨ id = i ∧ ∃ t, l[i]? = some t ∧ t' = f t := by
  by_cases hi : id = i
  · subst hi
    rw [List.getElem?_modify_eq] at h
    obtain ⟨t, ht, rfl⟩ := Option.map_eq_some_iff.mp h
    exact .inr ⟨rfl, t, ht, rfl⟩
  · rw [List.getElem?_modify_ne _ _ hi] at h
    exact .inl ⟨hi, h⟩

theorem getElem?_append_cases {l new : List Thread} {i : Nat} {t' : Thread}
    (h : (l ++ new)[i]? = some t') : l[i]? = some t' ∨ l[i]? = none ∧ t' ∈ new := by
  rcases Nat.lt_or_ge i l.length with hi | hi
  · rw [List.getElem?_append_left hi] at h
    exact .inl h
  · rw [List.getElem?_append_right hi] at h
    exact .inr ⟨List.getElem?_eq_none hi, List.mem_of_getElem? h⟩

theorem Step.comes (h : c.Step m c') {i : Nat} {t' : Thread} (ht' : c'.threads[i]? = some t') :
    Comes c i t' m := by
  obtain ⟨he, rfl⟩ := h
  cases m with
  | pass | install | shutDown | raise | outside => exact .kept (fun h => by cases h) ht'
  | start work =>
    rcases getElem?_append_cases ht' with h | ⟨hi, h⟩
    · exact .kept (fun h => by cases h) h
    · exact .started hi he (List.mem_singleton.mp h)
  | receive id work event =>
    obtain ⟨t, ht, hw⟩ := progress?_eq_some.mp he.1
    rcases getElem?_modify_cases ht' with ⟨hi, h⟩ | ⟨rfl, s, hs, rfl⟩
    · exact .kept (fun h => hi (Option.some.inj h)) h
    · rw [ht] at hs
      cases hs
      exact .received ht hw he.2 rfl
  | resume id work event =>
    obtain ⟨t, ht, hw⟩ := progress?_eq_some.mp he
    rcases getElem?_append_cases ht' with h | ⟨hi, h⟩
    · rcases getElem?_modify_cases h with ⟨hi, h⟩ | ⟨rfl, s, hs, rfl⟩
      · exact .kept (fun h => hi (Option.some.inj h)) h
      · rw [ht] at hs
        cases hs
        exact .resumed ht hw rfl
    · obtain ⟨new, hn, rfl⟩ := List.mem_map.mp h
      rw [List.getElem?_eq_none_iff, List.length_modify, ← List.getElem?_eq_none_iff] at hi
      exact .spawned hi ht hw hn rfl

/-- A move takes a task further that is there. -/
theorem Step.subject (h : c.Step m c') {i : Nat} (hm : m.subject? = some i) :
    ∃ t, c.threads[i]? = some t := by
  obtain ⟨he, _⟩ := h
  cases m with
  | receive id work event =>
    cases hm
    obtain ⟨t, ht, _⟩ := progress?_eq_some.mp he.1
    exact ⟨t, ht⟩
  | resume id work event =>
    cases hm
    obtain ⟨t, ht, _⟩ := progress?_eq_some.mp he
    exact ⟨t, ht⟩
  | _ => cases hm

/-- A task that is there stays there, with its origin. -/
theorem Step.origin (h : c.Step m c') {i : Nat} {t : Thread} (ht : c.threads[i]? = some t) :
    ∃ t', c'.threads[i]? = some t' ∧ t'.origin = t.origin ∧ t'.parent = t.parent := by
  obtain ⟨_, rfl⟩ := h
  have hi : i < c.threads.length := (List.getElem?_eq_some_iff.mp ht).1
  have modified (id : Nat) (f : Thread → Thread)
      (hf : ∀ s : Thread, (f s).origin = s.origin ∧ (f s).parent = s.parent) :
      ∃ t', (c.threads.modify id f)[i]? = some t' ∧ t'.origin = t.origin ∧
        t'.parent = t.parent := by
    by_cases hid : id = i
    · subst hid
      exact ⟨f t, by rw [List.getElem?_modify_eq, ht]; rfl, hf t⟩
    · exact ⟨t, by rw [List.getElem?_modify_ne _ _ hid, ht], rfl, rfl⟩
  cases m with
  | pass | install | shutDown | raise | outside => exact ⟨t, ht, rfl, rfl⟩
  | start work => exact ⟨t, (List.getElem?_append_left hi).trans ht, rfl, rfl⟩
  | receive id work event => exact modified id _ fun s => ⟨rfl, rfl⟩
  | resume id work event =>
    obtain ⟨t', ht', ho⟩ := modified id (·.proceed (work.resume c.controllers c.clock event).next)
      fun s => by unfold Thread.proceed; split <;> exact ⟨rfl, rfl⟩
    refine ⟨t', ?_, ho⟩
    exact (List.getElem?_append_left (by rw [List.length_modify]; exact hi)).trans ht'

/-- A task that is not there after a move was not there before it, and the move was not its own. -/
theorem Step.absent (h : c.Step m c') {i : Nat} (hi : c'.threads[i]? = none) :
    c.threads[i]? = none ∧ m.subject? ≠ some i := by
  have hbefore : c.threads[i]? = none := by
    cases ht : c.threads[i]? with
    | none => rfl
    | some t =>
      obtain ⟨t', ht', _⟩ := h.origin ht
      rw [hi] at ht'
      cases ht'
  refine ⟨hbefore, fun hm => ?_⟩
  obtain ⟨t, ht⟩ := h.subject hm
  rw [hbefore] at ht
  cases ht

theorem unmoved {history : List (Operator × Move)} {i : Nat} (h : Execution Step {} history c)
    (hi : c.threads[i]? = none) : ∀ moment ∈ history, moment.2.subject? ≠ some i := by
  induction h with
  | start => exact List.forall_mem_nil _
  | next _ last ih =>
    obtain ⟨hbefore, hm⟩ := last.absent hi
    exact List.forall_mem_cons.mpr ⟨hm, ih hbefore⟩

/-- The controllers after a task has gone on. -/
theorem Step.controllers {id : Nat} {work : Work} {event : work.wait.Event}
    (h : c.Step (.resume id work event) c') :
    c'.controllers = (work.resume c.controllers c.clock event).controllers := by
  rw [h.2]
  rfl

/-! ### How far tasks have come -/

section
variable {id k : Nat} {work : Work} {event : work.wait.Event}

theorem progress?_receive_self (h : c.progress? id = some (.waiting work none)) :
    (c.next (.receive id work event)).progress? id = some (.waiting work (some event)) := by
  obtain ⟨t, ht, _⟩ := progress?_eq_some.mp h
  refine progress?_eq_some.mpr ⟨t.receive work event, ?_, rfl⟩
  rw [next, List.getElem?_modify_eq, ht]
  rfl

theorem progress?_receive_ne (h : k ≠ id) :
    (c.next (.receive id work event)).progress? k = c.progress? k := by
  unfold progress?
  rw [next, List.getElem?_modify_ne _ _ (fun he => h he.symm)]

theorem lt_of_progress? {p : Progress} (h : c.progress? k = some p) : k < c.threads.length := by
  obtain ⟨t, ht, _⟩ := progress?_eq_some.mp h
  exact (List.getElem?_eq_some_iff.mp ht).1

theorem progress?_resume_self (h : c.progress? id = some (.waiting work (some event))) :
    (c.next (.resume id work event)).progress? id =
      some (match (work.resume c.controllers c.clock event).next with
        | .going new => .waiting new none
        | .ended result => .ended result) := by
  obtain ⟨t, ht, _⟩ := progress?_eq_some.mp h
  refine progress?_eq_some.mpr
    ⟨t.proceed (work.resume c.controllers c.clock event).next, ?_, ?_⟩
  · rw [next, follow, List.getElem?_append_left (by rw [List.length_modify]; exact lt_of_progress? h),
      List.getElem?_modify_eq, ht]
    rfl
  · cases (work.resume c.controllers c.clock event).next <;> rfl

theorem progress?_resume_ne (h : k ≠ id) (hk : k < c.threads.length) :
    (c.next (.resume id work event)).progress? k = c.progress? k := by
  unfold progress?
  rw [next, follow, List.getElem?_append_left (by rw [List.length_modify]; exact hk),
    List.getElem?_modify_ne _ _ (fun he => h he.symm)]

theorem progress?_started {j : Nat} {new : Work}
    (h : (work.resume c.controllers c.clock event).started[j]? = some new) :
    (c.next (.resume id work event)).progress? (c.threads.length + j) =
      some (.waiting new none) := by
  refine progress?_eq_some.mpr ⟨.begin (some id) new, ?_, rfl⟩
  rw [next, follow, List.getElem?_append_right (by rw [List.length_modify]; omega),
    List.length_modify, Nat.add_sub_cancel_left, List.getElem?_map, h]
  rfl

end

/-! ### Counting tasks -/

theorem countP_modify {l : List Thread} {id : Nat} {t : Thread} (h : l[id]? = some t)
    (f : Thread → Thread) (p : Thread → Bool) :
    (l.modify id f).countP p + (p t).toNat = l.countP p + (p (f t)).toNat := by
  induction l generalizing id with
  | nil => cases h
  | cons s l ih =>
    cases id with
    | zero =>
      cases h
      rw [List.modify_zero_cons, List.countP_cons, List.countP_cons]
      cases p t <;> cases p (f t) <;> simp
    | succ id =>
      have := ih h
      rw [List.modify_succ_cons, List.countP_cons, List.countP_cons]
      omega

theorem countP_receive {id : Nat} {t : Thread} {work : Work} (ht : c.threads[id]? = some t)
    (event : work.wait.Event) (p : Thread → Bool) :
    (c.next (.receive id work event)).threads.countP p + (p t).toNat =
      c.threads.countP p + (p (t.receive work event)).toNat :=
  countP_modify ht _ p

theorem countP_resume {id : Nat} {t : Thread} {work : Work} (ht : c.threads[id]? = some t)
    (event : work.wait.Event) (p : Thread → Bool) {step : Rehearsal.Step}
    (hs : work.resume c.controllers c.clock event = step) :
    (c.next (.resume id work event)).threads.countP p + (p t).toNat =
      c.threads.countP p + (p (t.proceed step.next)).toNat +
        step.started.countP fun new => p (.begin (some id) new) := by
  have h := countP_modify ht (·.proceed step.next) p
  rw [next, follow, hs, List.countP_append, List.countP_map]
  simp only [Function.comp_def]
  omega

/-! ## Steps of reconciliations, monitors and watchers -/

/-- A reconciliation that does nothing but end, or goes on. -/
def turned (owner : Nat) (told : Option Nat) : Reconcile.Turn → Rehearsal.Next
  | .going r => .going (.reconcile owner told r)
  | .ended result _ => .ended (.reconciled result)

/-- The monitor that a reconciliation starts at its end. -/
def monitors (owner : Nat) : Reconcile.Turn → List Work
  | .going _ => []
  | .ended _ m => m.toList.map (.monitor owner)

/-- The failure that a reconciliation leaves for the watcher that it was started by. -/
def noted (told : Option Nat) (key : ObjectKey) : Reconcile.Turn → List (Nat × ObjectKey)
  | .ended (.error _) _ => told.toList.map (·, key)
  | _ => []

/-- What comes of a step of a reconciliation. One whose controller does not exist just ends. -/
inductive Reconciles (cs : List Controller) (now : Instant) (owner : Nat) (told : Option Nat)
    (key : ObjectKey) (stage : Reconcile.Stage) (event : (Reconcile.mk key stage).wait.Event) :
    Rehearsal.Step → Prop
  | orphan (hd : cs[owner]? = none) :
      Reconciles cs now owner told key stage event { controllers := cs, next := .ended .done }
  | turns {d d' d'' : Controller} {turn : Reconcile.Turn} (hd : cs[owner]? = some d)
      (hr : Reconcile.Resumes d now key stage event d' turn) (ht : d''.tracker = d'.tracker)
      (hn : d''.tokens = d'.tokens) (hp : d''.podCounter = d'.podCounter)
      (hf : d''.failures = d'.failures ++ noted told key turn) :
      Reconciles cs now owner told key stage event
        ⟨cs.set owner d'', monitors owner turn, turned owner told turn⟩

theorem reconciles (cs : List Controller) (now : Instant) (owner : Nat) (told : Option Nat)
    (key : ObjectKey) (stage : Reconcile.Stage) (event : (Reconcile.mk key stage).wait.Event) :
    Reconciles cs now owner told key stage event
      ((Work.reconcile owner told ⟨key, stage⟩).resume cs now event) := by
  simp only [Work.resume]
  cases hd : cs[owner]? with
  | none => exact .orphan hd
  | some d =>
    simp only
    rcases hr : Reconcile.resume d now ⟨key, stage⟩ event with ⟨d', turn⟩
    have hr' := Reconcile.resumes hr
    cases turn with
    | going r => exact .turns hd hr' rfl rfl rfl (List.append_nil _).symm
    | ended result m =>
      cases result with
      | ok outcome => exact .turns hd hr' rfl rfl rfl (List.append_nil _).symm
      | error e =>
        cases told with
        | none => exact .turns hd hr' rfl rfl rfl (List.append_nil _).symm
        | some number => exact .turns hd hr' rfl rfl rfl rfl

/-- What comes of a step of a monitor. One whose controller does not exist just ends. -/
inductive Monitors (cs : List Controller) (now : Instant) (owner : Nat) (key : ObjectKey)
    (stage : Monitor.Stage) (event : (Monitor.mk key stage).wait.Event) : Rehearsal.Step → Prop
  | orphan (hd : cs[owner]? = none) :
      Monitors cs now owner key stage event { controllers := cs, next := .ended .done }
  | goes {d d' : Controller} {m : Monitor} (hd : cs[owner]? = some d)
      (hr : Monitor.Resumes d now key stage event d' (.going m)) :
      Monitors cs now owner key stage event
        { controllers := cs.set owner d', next := .going (.monitor owner m) }
  | ends {d d' : Controller} (hd : cs[owner]? = some d)
      (hr : Monitor.Resumes d now key stage event d' .ended) :
      Monitors cs now owner key stage event
        { controllers := cs.set owner d', next := .ended .done }

theorem follows (cs : List Controller) (now : Instant) (owner : Nat) (key : ObjectKey)
    (stage : Monitor.Stage) (event : (Monitor.mk key stage).wait.Event) :
    Monitors cs now owner key stage event
      ((Work.monitor owner ⟨key, stage⟩).resume cs now event) := by
  simp only [Work.resume]
  cases hd : cs[owner]? with
  | none => exact .orphan hd
  | some d =>
    simp only
    rcases hr : Monitor.resume d now ⟨key, stage⟩ event with ⟨d', turn⟩
    have hr' := Monitor.resumes hr
    cases turn with
    | going m => exact .goes hd hr'
    | ended => exact .ends hd hr'

/-- What comes of a step of a watcher. One whose controller does not exist just ends. -/
inductive Watches (cs : List Controller) (now : Instant) (owner : Nat) (w : Watcher)
    (event : w.wait.Event) : Rehearsal.Step → Prop
  | orphan (hd : cs[owner]? = none) :
      Watches cs now owner w event { controllers := cs, next := .ended .done }
  | goes {d d' : Controller} {w' : Watcher} {events : List ObjectKey} (hd : cs[owner]? = some d)
      (hr : Watcher.Resumes d now w event d' (.going w' events)) :
      Watches cs now owner w event
        { controllers := cs.set owner d'
          started := events.map fun key => .reconcile owner (some w.number) (.start key)
          next := .going (.watcher owner w') }
  | ends {d d' : Controller} (hd : cs[owner]? = some d)
      (hr : Watcher.Resumes d now w event d' .ended) :
      Watches cs now owner w event { controllers := cs.set owner d', next := .ended .done }

theorem watches (cs : List Controller) (now : Instant) (owner : Nat) (w : Watcher)
    (event : w.wait.Event) :
    Watches cs now owner w event ((Work.watcher owner w).resume cs now event) := by
  simp only [Work.resume]
  cases hd : cs[owner]? with
  | none => exact .orphan hd
  | some d =>
    simp only
    rcases hw : w.resume d now event with ⟨d', turn⟩
    have hr := Watcher.resumes hw
    cases turn with
    | going w' events => exact .goes hd hr
    | ended => exact .ends hd hr

/-! ### What a task goes on as, and what it starts -/

/-- What a task that does not end goes on as. -/
inductive Goes (cs : List Controller) (now : Instant) :
    (work : Work) → work.wait.Event → Work → Prop
  | update {u u' : StatusUpdate} {event : u.wait.Event} (hu : u.resume now event = .going u') :
      Goes cs now (.update u) event (.update u')
  | completion {w w' : CompletionWait} {event : w.wait.Event}
      (hw : w.resume now event = .going w') : Goes cs now (.completion w) event (.completion w')
  | reconcile {owner : Nat} {told : Option Nat} {key : ObjectKey} {stage : Reconcile.Stage}
      {event : (Reconcile.mk key stage).wait.Event} {d d' d'' : Controller} {r : Reconcile}
      (hd : cs[owner]? = some d) (hr : Reconcile.Resumes d now key stage event d' (.going r))
      (hc : ((Work.reconcile owner told ⟨key, stage⟩).resume cs now event).controllers =
        cs.set owner d'') (ht : d''.tracker = d'.tracker) (hp : d''.podCounter = d'.podCounter) :
      Goes cs now (.reconcile owner told ⟨key, stage⟩) event (.reconcile owner told r)
  | monitor {owner : Nat} {key : ObjectKey} {stage : Monitor.Stage}
      {event : (Monitor.mk key stage).wait.Event} {d d' : Controller} {m : Monitor}
      (hd : cs[owner]? = some d) (hr : Monitor.Resumes d now key stage event d' (.going m)) :
      Goes cs now (.monitor owner ⟨key, stage⟩) event (.monitor owner m)
  | watcher {owner : Nat} {w w' : Watcher} {event : w.wait.Event} {d d' : Controller}
      {events : List ObjectKey} (hd : cs[owner]? = some d)
      (hr : Watcher.Resumes d now w event d' (.going w' events))
      (hs : (Work.watcher owner w).resume cs now event = ⟨cs.set owner d',
        events.map fun key => .reconcile owner (some w.number) (.start key),
        .going (.watcher owner w')⟩) :
      Goes cs now (.watcher owner w) event (.watcher owner w')
  | harvest {h h' : Harvest} {event : h.wait.Event} (hh : h.resume now event = .going h') :
      Goes cs now (.harvest h) event (.harvest h')

theorem goes {cs : List Controller} {now : Instant} {work work' : Work} {event : work.wait.Event}
    (h : (work.resume cs now event).next = .going work') : Goes cs now work event work' := by
  cases work with
  | call request => cases h
  | update u =>
    simp only [Work.resume] at h
    cases hu : u.resume now event with
    | ended result =>
      rw [hu] at h
      cases h
    | going u' =>
      rw [hu] at h
      cases h
      exact .update hu
  | completion w =>
    simp only [Work.resume] at h
    cases hw : w.resume now event with
    | ended result =>
      rw [hw] at h
      cases h
    | going w' =>
      rw [hw] at h
      cases h
      exact .completion hw
  | harvest w =>
    simp only [Work.resume] at h
    cases hw : w.resume now event with
    | ended result =>
      rw [hw] at h
      cases h
    | going w' =>
      rw [hw] at h
      cases h
      exact .harvest hw
  | reconcile owner told r =>
    obtain ⟨key, stage⟩ := r
    have hr := reconciles cs now owner told key stage event
    generalize hs : (Work.reconcile owner told ⟨key, stage⟩).resume cs now event = step at h hr
    cases hr with
    | orphan => cases h
    | @turns _ _ _ turn hd hr ht _ hp =>
      cases turn with
      | ended result m => cases h
      | going r =>
        cases h
        exact .reconcile hd hr (by rw [hs]) ht hp
  | monitor owner m =>
    obtain ⟨key, stage⟩ := m
    have hr := follows cs now owner key stage event
    generalize (Work.monitor owner ⟨key, stage⟩).resume cs now event = step at h hr
    cases hr with
    | orphan => cases h
    | ends => cases h
    | goes hd hr =>
      cases h
      exact .monitor hd hr
  | watcher owner w =>
    have hr := watches cs now owner w event
    generalize hs : (Work.watcher owner w).resume cs now event = step at h hr
    cases hr with
    | orphan => cases h
    | ends => cases h
    | goes hd hr =>
      cases h
      exact .watcher hd hr hs
  | seeding owner ns =>
    cases event with
    | error e => cases h
    | ok pods =>
      simp only [Work.resume] at h
      split at h <;> cases h

/-- The tasks that a task starts. -/
inductive Spawns (cs : List Controller) (now : Instant) :
    (work : Work) → work.wait.Event → Work → Prop
  | event {owner : Nat} {w : Watcher} {event : w.wait.Event} (key : ObjectKey) :
      Spawns cs now (.watcher owner w) event (.reconcile owner (some w.number) (.start key))
  | monitor {owner : Nat} {told : Option Nat} {key : ObjectKey} {stage : Reconcile.Stage}
      {event : (Reconcile.mk key stage).wait.Event} {d d' d'' : Controller}
      {result : Except ClusterError Outcome} {m : Monitor} (hd : cs[owner]? = some d)
      (hr : Reconcile.Resumes d now key stage event d' (.ended result (some m)))
      (hc : ((Work.reconcile owner told ⟨key, stage⟩).resume cs now event).controllers =
        cs.set owner d'') (ht : d''.tracker = d'.tracker) :
      Spawns cs now (.reconcile owner told ⟨key, stage⟩) event (.monitor owner m)

theorem spawns {cs : List Controller} {now : Instant} {work new : Work} {event : work.wait.Event}
    (h : new ∈ (work.resume cs now event).started) : Spawns cs now work event new := by
  cases work with
  | call request => cases h
  | update u =>
    simp only [Work.resume] at h
    split at h <;> cases h
  | completion w =>
    simp only [Work.resume] at h
    split at h <;> cases h
  | harvest w =>
    simp only [Work.resume] at h
    split at h <;> cases h
  | reconcile owner told r =>
    obtain ⟨key, stage⟩ := r
    have hr := reconciles cs now owner told key stage event
    generalize hs : (Work.reconcile owner told ⟨key, stage⟩).resume cs now event = step at h hr
    cases hr with
    | orphan => cases h
    | @turns _ _ _ turn hd hr ht =>
      cases turn with
      | going r => cases h
      | ended result m =>
        obtain ⟨m', hm, rfl⟩ := List.mem_map.mp h
        rw [Option.mem_toList] at hm
        subst hm
        exact .monitor hd hr (by rw [hs]) ht
  | monitor owner m =>
    obtain ⟨key, stage⟩ := m
    have hr := follows cs now owner key stage event
    generalize (Work.monitor owner ⟨key, stage⟩).resume cs now event = step at h hr
    cases hr <;> cases h
  | watcher owner w =>
    have hr := watches cs now owner w event
    generalize (Work.watcher owner w).resume cs now event = step at h hr
    cases hr with
    | orphan => cases h
    | ends => cases h
    | goes hd hr =>
      obtain ⟨key, _, rfl⟩ := List.mem_map.mp h
      exact .event key
  | seeding owner ns =>
    cases event with
    | error e => cases h
    | ok pods =>
      simp only [Work.resume] at h
      split at h <;> cases h

/-- What comes out of a task that ends. -/
inductive Ends (cs : List Controller) (now : Instant) :
    (work : Work) → work.wait.Event → Result → Prop
  | call {request : Request} {reply : request.Reply} :
      Ends cs now (.call request) reply (.called request reply)
  | update {u : StatusUpdate} {event : u.wait.Event} {result : Except ClusterError Run}
      (hu : u.resume now event = .ended result) : Ends cs now (.update u) event (.updated result)
  | completion {w : CompletionWait} {event : w.wait.Event} {result : Except MonitorError Int32}
      (hw : w.resume now event = .ended result) : Ends cs now (.completion w) event (.waited result)
  | reconcile {owner : Nat} {told : Option Nat} {key : ObjectKey} {stage : Reconcile.Stage}
      {event : (Reconcile.mk key stage).wait.Event} {d d' : Controller}
      {result : Except ClusterError Outcome} {monitor : Option Monitor}
      (hr : Reconcile.Resumes d now key stage event d' (.ended result monitor)) :
      Ends cs now (.reconcile owner told ⟨key, stage⟩) event (.reconciled result)
  | seeding {owner : Nat} {ns : String} {reply : Except ClusterError (List Pod)}
      {result : Except ClusterError UInt64} : Ends cs now (.seeding owner ns) reply (.seeded result)
  | harvest {w : Harvest} {event : w.wait.Event} {result : Except HarvestError Report}
      (hw : w.resume now event = .ended result) : Ends cs now (.harvest w) event (.harvested result)
  /-- A monitor or a watcher ends, or a task whose controller does not exist. -/
  | done {work : Work} {event : work.wait.Event} : Ends cs now work event .done

theorem ends {cs : List Controller} {now : Instant} {work : Work} {event : work.wait.Event}
    {result : Result} (h : (work.resume cs now event).next = .ended result) :
    Ends cs now work event result := by
  cases work with
  | call =>
    cases h
    exact .call
  | update u =>
    simp only [Work.resume] at h
    cases hu : u.resume now event with
    | going u' =>
      rw [hu] at h
      cases h
    | ended r =>
      rw [hu] at h
      cases h
      exact .update hu
  | completion w =>
    simp only [Work.resume] at h
    cases hw : w.resume now event with
    | going w' =>
      rw [hw] at h
      cases h
    | ended r =>
      rw [hw] at h
      cases h
      exact .completion hw
  | harvest w =>
    simp only [Work.resume] at h
    cases hw : w.resume now event with
    | going w' =>
      rw [hw] at h
      cases h
    | ended r =>
      rw [hw] at h
      cases h
      exact .harvest hw
  | reconcile owner told r =>
    obtain ⟨key, stage⟩ := r
    have hr := reconciles cs now owner told key stage event
    generalize (Work.reconcile owner told ⟨key, stage⟩).resume cs now event = step at hr h
    cases hr with
    | orphan =>
      cases h
      exact .done
    | @turns _ _ _ turn _ hr =>
      cases turn with
      | going r => cases h
      | ended result monitor =>
        cases h
        exact .reconcile hr
  | monitor owner m =>
    obtain ⟨key, stage⟩ := m
    have hr := follows cs now owner key stage event
    generalize (Work.monitor owner ⟨key, stage⟩).resume cs now event = step at hr h
    cases hr <;> cases h <;> exact .done
  | watcher owner w =>
    have hr := watches cs now owner w event
    generalize (Work.watcher owner w).resume cs now event = step at hr h
    cases hr <;> cases h <;> exact .done
  | seeding owner ns =>
    cases event with
    | error e =>
      cases h
      exact .seeding
    | ok pods =>
      simp only [Work.resume] at h
      split at h <;> cases h
      · exact .seeding
      · exact .done

/-- How the task with number `i` after a move has begun. -/
inductive Begins (c : Operator) (m : Move) (i : Nat) (t' : Thread) : Prop
  /-- It has been there before. -/
  | before {t : Thread} (ht : c.threads[i]? = some t) (ho : t'.origin = t.origin)
      (hp : t'.parent = t.parent)
  /-- It was started from outside. -/
  | outside (hw : c.MayStart t'.origin) (hp : t'.parent = none)
  /-- It was started by another task. -/
  | spawned {id : Nat} {work : Work} {event : work.wait.Event} (hm : m = .resume id work event)
      (hw : c.progress? id = some (.waiting work (some event)))
      (hn : Spawns c.controllers c.clock work event t'.origin) (hp : t'.parent = some id)

theorem Step.begins (h : c.Step m c') {i : Nat} {t' : Thread} (ht' : c'.threads[i]? = some t') :
    Begins c m i t' := by
  cases h.comes ht' with
  | kept _ ht => exact .before ht rfl rfl
  | received ht _ _ he => exact .before ht (by rw [he]; rfl) (by rw [he]; rfl)
  | resumed ht _ he =>
    refine .before ht ?_ ?_ <;> (rw [he]; unfold Thread.proceed; split <;> rfl)
  | started _ hw he =>
    subst he
    exact .outside hw rfl
  | spawned _ ht hw hn he =>
    subst he
    exact .spawned rfl (progress?_eq_some.mpr ⟨_, ht, hw⟩) (spawns hn) rfl

/-! ### What tasks wait for -/

/-- Why the task with number `i` waits after a move. -/
inductive Waits (c : Operator) (i : Nat) (work : Work) (answer : Option work.wait.Event) :
    Move → Prop
  /-- It has not moved. -/
  | kept {m : Move} (hm : m.subject? ≠ some i)
      (h : c.progress? i = some (.waiting work answer)) : Waits c i work answer m
  /-- It has been given what it waited for. -/
  | received {event : work.wait.Event} (h : c.progress? i = some (.waiting work none))
      (ha : c.Admits work work.wait event) (he : answer = some event) :
      Waits c i work answer (.receive i work event)
  /-- It has gone on. -/
  | resumed {old : Work} {event : old.wait.Event}
      (h : c.progress? i = some (.waiting old (some event)))
      (hg : Goes c.controllers c.clock old event work) (he : answer = none) :
      Waits c i work answer (.resume i old event)
  /-- It was started from outside. -/
  | started (hi : c.threads[i]? = none) (hw : c.MayStart work) (he : answer = none) :
      Waits c i work answer (.start work)
  /-- It was started by another task. -/
  | spawned {id : Nat} {old : Work} {event : old.wait.Event} (hi : c.threads[i]? = none)
      (h : c.progress? id = some (.waiting old (some event)))
      (hs : Spawns c.controllers c.clock old event work) (he : answer = none) :
      Waits c i work answer (.resume id old event)

/-- Every task that waits after a move does so for one of these reasons. -/
theorem Step.waits (h : c.Step m c') {i : Nat} {work : Work} {answer : Option work.wait.Event}
    (hw : c'.progress? i = some (.waiting work answer)) : Waits c i work answer m := by
  obtain ⟨t', ht', hw⟩ := progress?_eq_some.mp hw
  cases h.comes ht' with
  | kept hm ht => exact .kept hm (progress?_eq_some.mpr ⟨t', ht, hw⟩)
  | received ht hp ha he =>
    subst he
    cases hw
    exact .received (progress?_eq_some.mpr ⟨_, ht, hp⟩) ha rfl
  | @resumed t old event ht hp he =>
    subst he
    generalize hn : (old.resume _ _ event).next = next at hw
    cases next with
    | ended result => cases hw
    | going new =>
      cases hw
      exact .resumed (progress?_eq_some.mpr ⟨_, ht, hp⟩) (goes hn) rfl
  | started hi hm he =>
    subst he
    cases hw
    exact .started hi hm rfl
  | spawned hi ht hp hn he =>
    subst he
    cases hw
    exact .spawned hi (progress?_eq_some.mpr ⟨_, ht, hp⟩) (spawns hn) rfl

theorem waiting_induction {P : Work → Prop} (hstart : ∀ c work, MayStart c work → P work)
    (hgoes : ∀ cs now work event work', Goes cs now work event work' → P work → P work')
    (hspawns : ∀ cs now work event new, Spawns cs now work event new → P work → P new)
    {history : List (Operator × Move)} (h : Execution Step {} history c) {id : Nat} {work : Work}
    {answer : Option work.wait.Event} (hw : c.progress? id = some (.waiting work answer)) :
    P work := by
  induction h generalizing id work with
  | start => cases hw
  | next before last ih =>
    cases last.waits hw with
    | kept _ h => exact ih h
    | received h => exact ih h
    | resumed h hg => exact hgoes _ _ _ _ _ hg (ih h)
    | started _ hm => exact hstart _ _ hm
    | spawned _ h hs => exact hspawns _ _ _ _ _ hs (ih h)

end CertRuns.Operator
