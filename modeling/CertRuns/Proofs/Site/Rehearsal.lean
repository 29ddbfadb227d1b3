import CertRuns.Proofs.Site.Basic
import CertRuns.Rehearsal.World

/-!
# Rehearsals are executions

A rehearsal lets the tasks of an operator go on in one particular order, under a clock that moves
only when none of them can. Everything that it does is a move of a site.

* `Shows` : a site shows a rehearsal: its clock, controllers, tokens and store are those of the
  rehearsal, and so are its tasks, under other numbers;
* `Leads w w'` : what shows `w` can come to show `w'`; so for a task that goes on
  (`runTask_leads`), for time that passes (`run_leads`) and for what is done from outside;
* `rehearsed_shown` : whatever is rehearsed is shown by an execution.

So what holds of every execution holds of every rehearsal.
-/

namespace CertRuns

open Rehearsal (Work Result World Task)

namespace Site

variable {w w' : World} {t t' : Site} {ids : List Nat} {tasks : List Task} {x : Task}

/-! ## What a rehearsal looks like -/

/-- A site shows a rehearsal in which some tasks are under way. The rehearsal knows the tasks of the
site by the numbers `ids`. -/
structure Shows (w : World) (tasks : List Task) (ids : List Nat) (t : Site) : Prop where
  clock : t.operator.clock = w.instant
  controllers : t.operator.controllers = w.controllers
  raised : t.operator.raised = w.raised
  store : t.store = w.store
  length : ids.length = t.operator.threads.length
  nodup : ids.Nodup
  fresh : ∀ i ∈ ids, i < w.count
  waiting : ∀ x ∈ tasks, ∃ k, ids[k]? = some x.id ∧
    t.operator.progress? k = some (.waiting x.work (x.reply.map (·.2)))
  ended : ∀ id result, (id, result) ∈ w.results → ∃ k, ids[k]? = some id ∧
    t.operator.progress? k = some (.ended result)

def Shown (w : World) (t : Site) : Prop := ∃ ids, Shows w w.tasks ids t

def Leads (w w' : World) : Prop :=
  ∀ t, Shown w t → ∃ moves t', Execution Step t moves t' ∧ Shown w' t'

theorem Leads.refl (w : World) : Leads w w := fun t h => ⟨[], t, .start, h⟩

theorem Leads.trans {w₁ w₂ w₃ : World} (h : Leads w₁ w₂) (h' : Leads w₂ w₃) : Leads w₁ w₃ := by
  intro t hs
  obtain ⟨earlier, t', he, hs'⟩ := h t hs
  obtain ⟨later, t'', he', hs''⟩ := h' t' hs'
  exact ⟨later ++ earlier, t'', he.trans he', hs''⟩

theorem Shows.mono (h : Shows w tasks ids t) {fewer : List Task} (hf : ∀ x ∈ fewer, x ∈ tasks) :
    Shows w fewer ids t :=
  { h with waiting := fun x hx => h.waiting x (hf x hx) }

/-- Tasks that a rehearsal knows by two numbers are two tasks of the site. -/
theorem place_ne {i j k l : Nat} (hk : ids[k]? = some i) (hl : ids[l]? = some j) (hij : i ≠ j) :
    k ≠ l := by
  intro hkl
  rw [hkl, hl] at hk
  exact hij (Option.some.inj hk).symm

/-! ## A task that goes on -/

theorem nanos_le_of_millis_le {time : Instant} (h : World.millis time ≤ w.now) :
    time.nanos ≤ w.instant.nanos := by
  unfold World.millis at h
  unfold World.instant
  simp only
  omega

theorem alarm?_admits {c : Operator} {work : Work} {token : Token} {deadline : Option Instant}
    {tick : Instant} {alarm : Alarm} (hclock : c.clock = w.instant)
    (hcancelled : c.isCancelled work token = w.isCancelled work token)
    (h : w.alarm? (w.isCancelled work token) deadline tick = some alarm) :
    c.Admits work (.pause token deadline tick) alarm := by
  unfold World.alarm? at h
  split at h
  · rename_i hraised
    cases h
    exact hcancelled.trans hraised
  · split at h
    · rename_i hdue
      cases h
      cases deadline with
      | none => cases hdue
      | some time =>
        rw [Option.map_some, Option.getD_some, decide_eq_true_eq] at hdue
        refine ⟨time, rfl, ?_⟩
        rw [hclock]
        exact nanos_le_of_millis_le hdue
    · split at h
      · rename_i hdue
        cases h
        have hnow := nanos_le_of_millis_le hdue
        rw [← hclock] at hnow
        exact hnow
      · cases h

/-- What a call over the link is answered, and what becomes of the store. -/
theorem perform_answers (w : World) (r : Request) :
    w.store.Answers (w.perform r).1.store (.call r) (w.perform r).2 ∧
      (w.perform r).1 = { w with store := (w.perform r).1.store, link := (w.perform r).1.link } := by
  unfold World.perform
  split
  rename_i link fault hfault
  cases fault with
  | some f => exact ⟨.inr ⟨⟨_, rfl⟩, rfl⟩, rfl⟩
  | none => exact ⟨.inl ⟨⟨w.date, w.uid⟩, rfl⟩, rfl⟩

/-- What a task is given that waits for nothing that has to come first. -/
theorem event_spec {c : Operator} {work : Work} {wait : Wait} {arrival : Nat} {e : wait.Event}
    (hclock : c.clock = w.instant)
    (hcancelled : ∀ token, c.isCancelled work token = w.isCancelled work token)
    (hready : ∀ wake, wait = .sleep wake → World.millis wake ≤ w.now)
    (h : w.event work wait = (w', some (arrival, e))) :
    c.Admits work wait e ∧ w.store.Answers w'.store wait e ∧
      w' = { w with store := w'.store, link := w'.link } := by
  cases wait with
  | call r =>
    cases h
    exact ⟨trivial, perform_answers w r⟩
  | sleep wake =>
    cases h
    refine ⟨?_, rfl, rfl⟩
    have hnow := nanos_le_of_millis_le (hready wake rfl)
    rw [← hclock] at hnow
    exact hnow
  | pause token deadline tick =>
    simp only [World.event, Prod.mk.injEq] at h
    obtain ⟨rfl, he⟩ := h
    obtain ⟨alarm, ha, hpair⟩ := Option.map_eq_some_iff.mp he
    cases hpair
    exact ⟨alarm?_admits hclock (hcancelled token) ha, rfl, rfl⟩
  | look =>
    cases h
    exact ⟨trivial, rfl, rfl⟩
  | draw bound =>
    cases h
    exact ⟨UInt64.zero_le, rfl, rfl⟩
  | never => exact e.elim

theorem Shows.isCancelled (h : Shows w tasks ids t) (work : Work) (token : Token) :
    t.operator.isCancelled work token = w.isCancelled work token := by
  cases work with
  | monitor owner m => simp only [Operator.isCancelled, World.isCancelled, h.controllers]
  | _ => simp only [Operator.isCancelled, World.isCancelled, h.raised]

def others (w : World) (id : Nat) : List Task := w.tasks.filter (·.id != id)

theorem ne_of_mem_others {id : Nat} (h : x ∈ others w id) : x.id ≠ id := by
  have hne := (List.mem_filter.mp h).2
  rw [bne_iff_ne] at hne
  exact hne

theorem mem_others {id : Nat} (h : x ∈ w.tasks) (hne : x.id ≠ id) : x ∈ others w id :=
  List.mem_filter.mpr ⟨h, bne_iff_ne.mpr hne⟩

/-- A task is given what it waits for. -/
theorem Shows.receive {id : Nat} {work : Work} (h : Shows w (⟨id, work, none⟩ :: others w id) ids t)
    (hready : ∀ wake, work.wait = .sleep wake → World.millis wake ≤ w.now) {arrival : Nat}
    {e : work.wait.Event} (he : w.event work work.wait = (w', some (arrival, e))) :
    ∃ m t', t.Step m t' ∧ Shows w' (⟨id, work, some (arrival, e)⟩ :: others w' id) ids t' := by
  obtain ⟨hadmits, hanswers, hw'⟩ := event_spec h.clock (h.isCancelled work) hready he
  obtain ⟨k, hk, hp⟩ := h.waiting _ List.mem_cons_self
  refine ⟨.receive k work e, ⟨t.operator.next (.receive k work e), w'.store⟩,
    ⟨⟨⟨hp, hadmits⟩, rfl⟩, by rw [← h.store] at hanswers; exact hanswers⟩, ?_⟩
  rw [hw']
  constructor
  · exact h.clock
  · exact h.controllers
  · exact h.raised
  · rfl
  · rw [h.length, Operator.next, List.length_modify]
  · exact h.nodup
  · exact h.fresh
  · intro y hy
    rcases List.mem_cons.mp hy with rfl | hy
    · exact ⟨k, hk, Operator.progress?_receive_self hp⟩
    · obtain ⟨l, hl, hq⟩ := h.waiting y (List.mem_cons_of_mem _ hy)
      refine ⟨l, hl, ?_⟩
      rw [Operator.progress?_receive_ne (place_ne hl hk (ne_of_mem_others hy)), hq]
  · intro i result hr
    obtain ⟨l, hl, hq⟩ := h.ended i result hr
    refine ⟨l, hl, ?_⟩
    by_cases hlk : l = k
    · rw [hlk, hp] at hq
      cases hq
    · rw [Operator.progress?_receive_ne hlk, hq]

/-- The tasks that are started one after the other. -/
theorem foldl_start (new : List Work) (w : World) :
    new.foldl (fun w work => (w.start work).1) w =
      { w with
        tasks := w.tasks ++ new.mapIdx fun j work => { id := w.count + j, work }
        count := w.count + new.length } := by
  induction new generalizing w with
  | nil => simp
  | cons work new ih =>
    rw [List.foldl_cons, ih, List.mapIdx_cons]
    simp only [World.start, List.append_assoc, List.singleton_append, List.length_cons,
      Nat.add_zero, Nat.add_assoc, Nat.add_comm 1]

/-- The numbers of the tasks that are started are new. -/
theorem nodup_started (h : ids.Nodup) (hfresh : ∀ i ∈ ids, i < w.count) (count : Nat) :
    (ids ++ List.range' w.count count).Nodup := by
  rw [List.nodup_append]
  refine ⟨h, List.nodup_range', fun i hi j hj => ?_⟩
  have hlt := hfresh i hi
  have hle := (List.mem_range'_1.mp hj).1
  omega

/-- A rehearsal after a step of a task, which itself is not under way any more. -/
def stepped (w : World) (step : Rehearsal.Step) : World :=
  step.started.foldl (fun w work => (w.start work).1) { w with controllers := step.controllers }

theorem Shows.resume {id arrival : Nat} {work : Work} {e : work.wait.Event}
    (h : Shows w (⟨id, work, some (arrival, e)⟩ :: others w id) ids t) {step : Rehearsal.Step}
    (hstep : work.resume w.controllers w.instant e = step) :
    ∃ k ids', ∃ m t', t.Step m t' ∧ ids'[k]? = some id ∧
      t'.operator.progress? k =
        some (match step.next with
          | .going new => .waiting new none
          | .ended result => .ended result) ∧
      Shows (stepped w step) (others (stepped w step) id) ids' t' := by
  rw [← h.controllers, ← h.clock] at hstep
  obtain ⟨k, hk, hp⟩ := h.waiting _ List.mem_cons_self
  have hlt : k < ids.length := by rw [h.length]; exact Operator.lt_of_progress? hp
  have hself := Operator.progress?_resume_self hp
  have hstarted := @Operator.progress?_started t.operator k work e
  have hother := @Operator.progress?_resume_ne t.operator k
  have hnext : t.operator.next (.resume k work e) = t.operator.follow k step := by
    rw [← hstep]
    rfl
  rw [hstep] at hself hstarted
  have hkept {i l : Nat} {p : Progress} (hl : ids[l]? = some i)
      (hq : t.operator.progress? l = some p) (hne : l ≠ k) :
      (ids ++ List.range' w.count step.started.length)[l]? = some i ∧
        (t.operator.next (.resume k work e)).progress? l = some p := by
    have hll := Operator.lt_of_progress? hq
    refine ⟨?_, by rw [hother hne hll, hq]⟩
    rw [List.getElem?_append_left (by rw [h.length]; exact hll), hl]
  refine ⟨k, ids ++ List.range' w.count step.started.length, .resume k work e,
    ⟨t.operator.next (.resume k work e), t.store⟩, ⟨⟨hp, rfl⟩, rfl⟩, ?_, hself, ?_⟩
  · rw [List.getElem?_append_left hlt, hk]
  · rw [stepped, foldl_start]
    constructor
    · exact h.clock
    · rw [hnext]
      rfl
    · exact h.raised
    · exact h.store
    · rw [hnext, Operator.follow, List.length_append, List.length_append, List.length_modify,
        List.length_map, List.length_range', h.length]
    · exact nodup_started h.nodup h.fresh _
    · intro i hi
      rcases List.mem_append.mp hi with hi | hi
      · exact Nat.lt_of_lt_of_le (h.fresh i hi) (Nat.le_add_right _ _)
      · exact (List.mem_range'_1.mp hi).2
    · intro y hy
      have hne := ne_of_mem_others hy
      rcases List.mem_append.mp (List.mem_filter.mp hy).1 with hold | hnew
      · obtain ⟨l, hl, hq⟩ := h.waiting y (List.mem_cons_of_mem _ (mem_others hold hne))
        exact ⟨l, hkept hl hq (place_ne hl hk hne)⟩
      · obtain ⟨j, hj, rfl⟩ := List.mem_mapIdx.mp hnew
        refine ⟨t.operator.threads.length + j, ?_, hstarted (List.getElem?_eq_getElem hj)⟩
        rw [← h.length, List.getElem?_append_right (Nat.le_add_right _ _), Nat.add_sub_cancel_left,
          List.getElem?_range' hj, Nat.one_mul]
    · intro i result hr
      obtain ⟨l, hl, hq⟩ := h.ended i result hr
      refine ⟨l, hkept hl hq fun hlk => ?_⟩
      rw [hlk, hp] at hq
      cases hq

/-- A task that has been running waits. -/
theorem Shows.putBack (h : Shows w (x :: others w x.id) ids t) : Shown (w.putBack x) t := by
  refine ⟨ids, h.clock, h.controllers, h.raised, h.store, h.length, h.nodup, h.fresh, ?_, h.ended⟩
  intro y hy
  rcases List.mem_append.mp hy with hy | hy
  · exact h.waiting y (List.mem_cons_of_mem _ hy)
  · rw [List.mem_singleton.mp hy]
    exact h.waiting x List.mem_cons_self

/-- The rehearsal after a task has been given something. -/
def given (fuel : Nat) (w : World) (id : Nat) (work : Work) (arrival : Nat) (e : work.wait.Event) :
    World :=
  if w.now < arrival then w.putBack ⟨id, work, some (arrival, e)⟩
  else
    let step := work.resume w.controllers w.instant e
    match step.next with
    | .going new => World.runTask fuel (stepped w step) ⟨id, new, none⟩
    | .ended result => (stepped w step).endTask id result

theorem runTask_answered (fuel : Nat) (w : World) (id : Nat) (work : Work) (arrival : Nat)
    (e : work.wait.Event) : World.runTask (fuel + 1) w ⟨id, work, some (arrival, e)⟩ =
      if w.isReady ⟨id, work, some (arrival, e)⟩ then given fuel w id work arrival e
      else w.putBack ⟨id, work, some (arrival, e)⟩ := rfl

theorem runTask_asking (fuel : Nat) (w : World) (id : Nat) (work : Work) :
    World.runTask (fuel + 1) w ⟨id, work, none⟩ =
      if w.isReady ⟨id, work, none⟩ then
        match w.event work work.wait with
        | (w, none) => w.putBack ⟨id, work, none⟩
        | (w, some (arrival, e)) => given fuel w id work arrival e
      else w.putBack ⟨id, work, none⟩ := by
  rw [World.runTask]
  split
  · simp only
    rcases w.event work work.wait with ⟨w', _ | ⟨arrival, e⟩⟩ <;> rfl
  · rfl

/-- A task that waits for nothing that has to come first is given something; if it is not, nothing
happens. -/
theorem event_none {work : Work} {wait : Wait} (h : w.event work wait = (w', none)) : w' = w := by
  cases wait with
  | call | sleep | look | draw => cases h
  | pause | never => exact (congrArg Prod.fst h).symm

/-- Whatever comes of a task that goes on is shown by an execution. -/
theorem runTask_shown (fuel : Nat) {id : Nat} {work : Work}
    {reply : Option (Nat × work.wait.Event)}
    (h : Shows w (⟨id, work, reply⟩ :: others w id) ids t) :
    ∃ moves t', Execution Step t moves t' ∧ Shown (World.runTask fuel w ⟨id, work, reply⟩) t' := by
  induction fuel generalizing w work reply ids t with
  | zero => exact ⟨[], t, .start, h.putBack⟩
  | succ fuel ih =>
    have hgiven {w : World} {t : Site} {arrival : Nat} {e : work.wait.Event}
        (h : Shows w (⟨id, work, some (arrival, e)⟩ :: others w id) ids t) :
        ∃ moves t', Execution Step t moves t' ∧ Shown (given fuel w id work arrival e) t' := by
      unfold given
      split
      · exact ⟨[], t, .start, h.putBack⟩
      · generalize hstep : work.resume w.controllers w.instant e = step
        obtain ⟨k, ids', m, t', hs, hk, hp, hshows⟩ := h.resume hstep
        have hfirst : Execution Step t [(t, m)] t' := .next .start hs
        simp only
        cases hnext : step.next with
        | going new =>
          rw [hnext] at hp
          have hgoing : Shows (stepped w step) (⟨id, new, none⟩ :: others (stepped w step) id) ids'
              t' := by
            refine { hshows with waiting := fun y hy => ?_ }
            rcases List.mem_cons.mp hy with rfl | hy
            · exact ⟨k, hk, hp⟩
            · exact hshows.waiting y hy
          obtain ⟨moves, t'', he, hshown⟩ := ih hgoing
          exact ⟨_, t'', hfirst.trans he, hshown⟩
        | ended result =>
          rw [hnext] at hp
          refine ⟨_, t', hfirst, ids', { hshows with ended := fun i r hr => ?_ }⟩
          rcases List.mem_cons.mp hr with heq | hr
          · cases heq
            exact ⟨k, hk, hp⟩
          · exact hshows.ended i r hr
    cases reply with
    | some given =>
      obtain ⟨arrival, e⟩ := given
      rw [runTask_answered]
      split
      · exact hgiven h
      · exact ⟨[], t, .start, h.putBack⟩
    | none =>
      rw [runTask_asking]
      split
      · rename_i hready
        rcases hevent : w.event work work.wait with ⟨w', _ | ⟨arrival, e⟩⟩
        · rw [event_none hevent]
          exact ⟨[], t, .start, h.putBack⟩
        · have hsleep (wake : Instant) (hw : work.wait = .sleep wake) :
              World.millis wake ≤ w.now := by
            simp only [World.isReady, hw, decide_eq_true_eq] at hready
            exact hready
          obtain ⟨m, t', hs, hshows⟩ := h.receive hsleep hevent
          obtain ⟨moves, t'', he, hshown⟩ := hgiven hshows
          exact ⟨_, t'', (Execution.start.next hs).trans he, hshown⟩
      · exact ⟨[], t, .start, h.putBack⟩

/-! ## Time that passes -/

theorem runTask_leads (fuel : Nat) (hx : x ∈ w.tasks) : Leads w (World.runTask fuel w x) := by
  rintro t ⟨ids, h⟩
  refine runTask_shown fuel (h.mono fun y hy => ?_)
  rcases List.mem_cons.mp hy with rfl | hy
  · exact hx
  · exact (List.mem_filter.mp hy).1

theorem round_leads (w : World) : Leads w w.round := by
  unfold World.round
  generalize w.tasks.map (·.id) = numbers
  induction numbers generalizing w with
  | nil => exact .refl w
  | cons id numbers ih =>
    rw [List.foldl_cons]
    refine Leads.trans ?_ (ih _)
    split
    · rename_i x hx
      split
      · exact runTask_leads _ (List.mem_of_find?_eq_some hx)
      · exact .refl w
    · exact .refl w

theorem settle_leads (fuel : Nat) (w : World) : Leads w (World.settle fuel w) := by
  induction fuel generalizing w with
  | zero => exact .refl w
  | succ fuel ih =>
    rw [World.settle]
    split
    · exact (round_leads w).trans (ih _)
    · exact .refl w

theorem pass_leads (w : World) {now : Nat} (h : w.now ≤ now) : Leads w { w with now } := by
  rintro t ⟨ids, hs⟩
  have hle : t.operator.clock.nanos ≤ now * 1000000 := by
    rw [hs.clock]
    exact Nat.mul_le_mul_right _ h
  have hstep : t.Step (.pass ⟨now * 1000000⟩)
      ⟨{ t.operator with clock := ⟨now * 1000000⟩ }, t.store⟩ :=
    ⟨⟨hle, rfl⟩, rfl⟩
  exact ⟨_, _, .next .start hstep, ids, { hs with clock := rfl }⟩

theorem run_leads (goal : World → Bool) (limit : Option Nat) (fuel : Nat) (w : World) :
    Leads w (World.run goal limit fuel w) := by
  induction fuel generalizing w with
  | zero => exact .refl w
  | succ fuel ih =>
    rw [World.run]
    refine (settle_leads World.stepLimit w).trans ?_
    split
    · exact .refl _
    · split
      · exact (pass_leads _ (Nat.le_max_left _ _)).trans (ih _)
      · exact pass_leads _ (Nat.le_max_left _ _)

/-! ## What is done from outside -/

/-- The operator of a rehearsal before any task is started. -/
def idle (w : World) : Operator := { clock := w.instant, controllers := w.controllers }

theorem Shows.mayStart (h : Shows w tasks ids t) {work : Work} (hw : (idle w).MayStart work) :
    t.operator.MayStart work := by
  cases hw with
  | call => exact .call _
  | update => exact .update _ _ _
  | completion =>
    rw [show (idle w).clock = t.operator.clock from h.clock.symm]
    exact .completion _ _ _ _
  | reconcile => exact .reconcile _ _
  | watcher hd =>
    rw [show (idle w).clock = t.operator.clock from h.clock.symm]
    rw [show (idle w).controllers = t.operator.controllers from h.controllers.symm] at hd
    exact .watcher hd _ _
  | seeding => exact .seeding _ _
  | harvest => exact .harvest _ _ _

theorem start_leads (w : World) {work : Work} (hw : (idle w).MayStart work) :
    Leads w (w.start work).1 := by
  rintro t ⟨ids, h⟩
  have hstep : t.Step (.start work) ⟨t.operator.next (.start work), t.store⟩ :=
    ⟨⟨h.mayStart hw, rfl⟩, rfl⟩
  have hkept {i l : Nat} {p : Progress} (hl : ids[l]? = some i)
      (hq : t.operator.progress? l = some p) : (ids ++ [w.count])[l]? = some i ∧
        (t.operator.next (.start work)).progress? l = some p := by
    have hlt := Operator.lt_of_progress? hq
    rw [List.getElem?_append_left (by rw [h.length]; exact hlt), hl, ← hq]
    unfold Operator.progress?
    rw [Operator.next, List.getElem?_append_left hlt]
    exact ⟨rfl, rfl⟩
  refine ⟨_, _, .next .start hstep, ids ++ [w.count], h.clock, h.controllers, h.raised, h.store, ?_,
    nodup_started h.nodup h.fresh 1, ?_, ?_, ?_⟩
  · rw [Operator.next, List.length_append, List.length_append, h.length]
    rfl
  · intro i hi
    rcases List.mem_append.mp hi with hi | hi
    · exact Nat.lt_succ_of_lt (h.fresh i hi)
    · rw [List.mem_singleton.mp hi]
      exact Nat.lt_succ_self _
  · intro y hy
    rcases List.mem_append.mp hy with hy | hy
    · obtain ⟨l, hl, hq⟩ := h.waiting y hy
      exact ⟨l, hkept hl hq⟩
    · rw [List.mem_singleton.mp hy]
      refine ⟨ids.length, List.getElem?_concat_length, ?_⟩
      refine Operator.progress?_eq_some.mpr ⟨.begin none work, ?_, rfl⟩
      rw [Operator.next, h.length, List.getElem?_concat_length]
  · intro i result hr
    obtain ⟨l, hl, hq⟩ := h.ended i result hr
    exact ⟨l, hkept hl hq⟩

theorem mint_leads (w : World) : Leads w w.mint.1 := by
  rintro t ⟨ids, h⟩
  exact ⟨_, t, .start, ids, { h with fresh := fun i hi => Nat.lt_succ_of_lt (h.fresh i hi) }⟩

theorem raise_leads (w : World) (token : Token) : Leads w (w.raise token) := by
  rintro t ⟨ids, h⟩
  have hstep : t.Step (.raise token) ⟨t.operator.next (.raise token), t.store⟩ :=
    ⟨⟨trivial, rfl⟩, rfl⟩
  exact ⟨_, _, .next .start hstep, ids, { h with raised := congrArg (token :: ·) h.raised }⟩

theorem addController_leads (w : World) (settings : ControllerSettings) (retry : RetryPolicy) :
    Leads w (w.addController settings retry) := by
  rintro t ⟨ids, h⟩
  have hstep : t.Step (.install settings retry)
      ⟨t.operator.next (.install settings retry), t.store⟩ := ⟨⟨trivial, rfl⟩, rfl⟩
  refine ⟨_, _, .next .start hstep, ids, { h with controllers := ?_ }⟩
  rw [Operator.next, World.addController, h.controllers]

def stop (w : World) (owner : Nat) : World :=
  { w with controllers := w.controllers.modify owner fun d => { d with stopped := true } }

theorem stop_leads (w : World) (owner : Nat) : Leads w (stop w owner) := by
  rintro t ⟨ids, h⟩
  have hstep : t.Step (.shutDown owner) ⟨t.operator.next (.shutDown owner), t.store⟩ :=
    ⟨⟨trivial, rfl⟩, rfl⟩
  exact ⟨_, _, .next .start hstep, ids,
    { h with controllers := congrArg (List.modify · owner _) h.controllers }⟩

theorem shutdown_leads (w : World) (owner : Nat) : Leads w (w.shutdown owner).1 := by
  unfold World.shutdown
  exact (stop_leads w owner).trans (run_leads _ _ _ _)

theorem change_leads (w : World) (change : Outside) :
    Leads w { w with store := change.apply w.store } := by
  rintro t ⟨ids, h⟩
  have hstep : t.Step (.outside change) ⟨t.operator, change.apply w.store⟩ :=
    ⟨⟨trivial, rfl⟩, by rw [← h.store]; rfl⟩
  exact ⟨_, _, .next .start hstep, ids, { h with store := rfl }⟩

/-! ## Rehearsals -/

/-- What can be rehearsed. -/
inductive Rehearsed : World → Prop
  | start (date : Timestamp) (uid : String) : Rehearsed { date, uid }
  | task {w : World} {work : Work} (h : Rehearsed w) (hw : (idle w).MayStart work) :
      Rehearsed (w.start work).1
  | settle {w : World} (h : Rehearsed w) (fuel : Nat) : Rehearsed (w.settle fuel)
  | run {w : World} (h : Rehearsed w) (goal : World → Bool) (limit : Option Nat) (fuel : Nat) :
      Rehearsed (w.run goal limit fuel)
  | mint {w : World} (h : Rehearsed w) : Rehearsed w.mint.1
  | raise {w : World} (h : Rehearsed w) (token : Token) : Rehearsed (w.raise token)
  | install {w : World} (h : Rehearsed w) (settings : ControllerSettings) (retry : RetryPolicy) :
      Rehearsed (w.addController settings retry)
  | shutdown {w : World} (h : Rehearsed w) (owner : Nat) : Rehearsed (w.shutdown owner).1
  | change {w : World} (h : Rehearsed w) (change : Outside) :
      Rehearsed { w with store := change.apply w.store }
  /-- The link, the file and the date are changed. -/
  | arrange {w : World} (h : Rehearsed w) (link : Rehearsal.Link) (file : FileState)
      (date : Timestamp) (uid : String) : Rehearsed { w with link, file, date, uid }

theorem rehearsed_shown (h : Rehearsed w) :
    ∃ history t, Execution Step {} history t ∧ Shown w t := by
  have follow {w w' : World} (hl : Leads w w')
      (ih : ∃ history t, Execution Step {} history t ∧ Shown w t) :
      ∃ history t, Execution Step {} history t ∧ Shown w' t := by
    obtain ⟨earlier, t, he, hshown⟩ := ih
    obtain ⟨later, t', he', hshown'⟩ := hl t hshown
    exact ⟨later ++ earlier, t', he.trans he', hshown'⟩
  induction h with
  | start date uid =>
    have hclock : (⟨0⟩ : Instant) = ⟨0 * 1000000⟩ := by rw [Nat.zero_mul]
    refine ⟨[], {}, .start, [], hclock, rfl, rfl, rfl, rfl, .nil, ?_, ?_, ?_⟩
    · exact fun i hi => absurd hi List.not_mem_nil
    · exact fun x hx => absurd hx List.not_mem_nil
    · exact fun i result hr => absurd hr List.not_mem_nil
  | task _ hw ih => exact follow (start_leads _ hw) ih
  | settle _ fuel ih => exact follow (settle_leads fuel _) ih
  | run _ goal limit fuel ih => exact follow (run_leads goal limit fuel _) ih
  | mint _ ih => exact follow (mint_leads _) ih
  | raise _ token ih => exact follow (raise_leads _ token) ih
  | install _ settings retry ih => exact follow (addController_leads _ settings retry) ih
  | @shutdown w _ owner ih => exact follow (shutdown_leads w owner) ih
  | change _ change ih => exact follow (change_leads _ change) ih
  | arrange _ link file date uid ih =>
    obtain ⟨history, t, he, ids, hshows⟩ := ih
    exact ⟨history, t, he, ids, { hshows with clock := hshows.clock }⟩

end Site

end CertRuns
