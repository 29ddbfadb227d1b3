import CertRuns.Proofs.Control.PodCounter
import CertRuns.Proofs.Operator.Fates
import CertRuns.Proofs.Operator.PodNumbers

/-!
# Names that a controller has passed

A controller takes note of names in three ways: it lists pods to start its counter, it adopts a pod,
and it gives out a name. Each time the counter comes to the number in the name or is above it, and
the next name is given out above the counter. Names of others do no harm, with zeros or a sign
before their number or with none: a name without a number is never given out.

* `given?`, `adopted?`, `Work.seeding?` : the three ways to take note of a name;
* `Passed` : the counter is not below the number in a name; `Passed.ne` : so it is not given out;
* `Step.counter_le` : counters go up; `Step.given`, `Step.adopted`, `Step.seeded` : up to the names
  that are noted; `given_fresh`, `listed_fresh` : so they are not given out later;
* `Step.named`, `given_since` : where a reconciliation has the name for its pod from.
-/

namespace CertRuns

open Rehearsal (Work)

/-! ## Ways to take note of a name -/

/-- The pods that a task has listed to start the counter of a controller with. -/
def Rehearsal.Work.seeding? : (work : Work) → work.wait.Event → Option (Nat × String × List Pod)
  | .seeding owner ns, .ok pods => some (owner, ns, pods)
  | .watcher owner ⟨_, ns, _, _, _, _, _, .seeding⟩, .ok pods => some (owner, ns, pods)
  | _, _ => none

/-- What a task goes on with in a move, as far as `view` shows it. -/
def Move.taken? {α : Type} (id : Nat) (view : (work : Work) → work.wait.Event → Option α) :
    Move → Option α
  | .resume i work event => if i = id then view work event else none
  | _ => none

theorem Move.taken?_eq_some {α : Type} {id : Nat}
    {view : (work : Work) → work.wait.Event → Option α} {m : Move} {a : α}
    (h : m.taken? id view = some a) :
    ∃ work event, m = .resume id work event ∧ view work event = some a := by
  unfold taken? at h
  split at h
  · rename_i i work event
    by_cases hi : i = id
    · rw [if_pos hi] at h
      subst hi
      exact ⟨work, event, rfl, h⟩
    · rw [if_neg hi] at h
      cases h
  · cases h

namespace Operator

variable {c c' c₀ : Operator} {m : Move} {owner i : Nat} {name : String}
  {history : List (Operator × Move)}

/-- The name that a controller gives out in a move, for the pod of a run that has been announced. -/
def given? (owner : Nat) : Operator × Move → Option String
  | (c, .resume _ (.reconcile o _ ⟨_, .announcing _ _ u⟩) event) =>
    match u.resume c.clock event with
    | .ended (.ok _) =>
      if o = owner then c.controllers[o]?.map fun d => Job.podName d.nextPodNumber.2 else none
    | _ => none
  | _ => none

/-- The name of the pod that a controller adopts in a move. -/
def adopted? (owner : Nat) : Move → Option String
  | .resume _ (.reconcile o _ ⟨_, .inspecting _ _ pod⟩) (.ok _) =>
    if o = owner then some pod.name else none
  | _ => none

theorem given?_eq_some (h : given? owner (c, m) = some name) :
    ∃ id told key run claim u event stored d, m = .resume id
        (.reconcile owner told ⟨key, .announcing run claim u⟩) event ∧
      u.resume c.clock event = .ended (.ok stored) ∧ c.controllers[owner]? = some d ∧
      name = Job.podName (d.podCounter + 1) := by
  unfold given? at h
  split at h
  · rename_i heq
    cases heq
    split at h
    · rename_i hu
      split at h
      · rename_i ho
        subst ho
        obtain ⟨d, hd, rfl⟩ := Option.map_eq_some_iff.mp h
        exact ⟨_, _, _, _, _, _, _, _, d, rfl, hu, hd, rfl⟩
      · cases h
    · cases h
  · cases h

theorem adopted?_eq_some (h : adopted? owner m = some name) :
    ∃ id told key run claim pod found, m = .resume id
        (.reconcile owner told ⟨key, .inspecting run claim pod⟩) (.ok found) ∧ name = pod.name := by
  unfold adopted? at h
  split at h
  · split at h
    · rename_i ho
      subst ho
      cases h
      exact ⟨_, _, _, _, _, _, _, rfl, rfl⟩
    · cases h
  · cases h

/-! ## The counter -/

theorem counter_of_eq (h : c'.controllers = c.controllers) :
    c'.counter owner = c.counter owner := by
  rw [counter, h, counter]

theorem set_counter (owner : Nat) {o : Nat} {d d' : Controller} (hd : c.controllers[o]? = some d)
    (h : c'.controllers = c.controllers.set o d') :
    c'.counter owner = if owner = o then d'.podCounter else c.counter owner := by
  have ho : o < c.controllers.length := (List.getElem?_eq_some_iff.mp hd).1
  unfold counter
  rw [h]
  by_cases hi : owner = o
  · subst hi
    rw [if_pos rfl, List.getElem?_set_self ho]
    rfl
  · rw [if_neg hi, List.getElem?_set_ne (fun h => hi h.symm)]

theorem counter_le_set {o : Nat} {d d' : Controller} (hd : c.controllers[o]? = some d)
    (h : c'.controllers = c.controllers.set o d')
    (hle : owner = o → d.podCounter ≤ d'.podCounter) : c.counter owner ≤ c'.counter owner := by
  rw [set_counter owner hd h]
  split
  · rename_i ho
    subst ho
    rw [counter_eq hd]
    exact hle rfl
  · exact UInt64.le_refl _

theorem Step.counter_le (h : c.Step m c') (hb : (c.counter owner).toNat < longBound - 1) :
    c.counter owner ≤ c'.counter owner := by
  obtain ⟨_, rfl⟩ := h
  have same (hcs : (c.next m).controllers = c.controllers) :
      c.counter owner ≤ (c.next m).counter owner := by
    rw [counter_of_eq hcs]
    exact UInt64.le_refl _
  cases m with
  | pass | raise | start | receive | outside => exact same rfl
  | install settings retry =>
    unfold counter next
    rw [List.getElem?_append]
    split
    · exact UInt64.le_refl _
    · rename_i hlt
      rw [List.getElem?_eq_none (Nat.not_lt.mp hlt)]
      exact UInt64.zero_le
  | shutDown o =>
    unfold counter next
    rw [List.getElem?_modify]
    cases c.controllers[owner]? with
    | none => exact UInt64.le_refl _
    | some d =>
      simp only [Option.map_eq_map, Option.map_some]
      split <;> exact UInt64.le_refl _
  | resume id work event =>
    have hcs : (c.next (.resume id work event)).controllers =
      (work.resume c.controllers c.clock event).controllers := rfl
    cases work with
    | call => exact same rfl
    | update | completion | harvest =>
      apply same
      simp only [next, follow, Work.resume]
      split <;> rfl
    | reconcile o told r =>
      have hr := reconciles c.controllers c.clock o told r.key r.stage event
      generalize (Work.reconcile o told ⟨r.key, r.stage⟩).resume c.controllers c.clock event = step
        at hr hcs
      cases hr with
      | orphan => exact same hcs
      | turns hd hr _ _ hp =>
        refine counter_le_set hd hcs fun ho => ?_
        subst ho
        rw [counter_eq hd] at hb
        rw [hp]
        exact hr.podCounter_le hb
    | monitor o r =>
      have hr := follows c.controllers c.clock o r.key r.stage event
      generalize (Work.monitor o ⟨r.key, r.stage⟩).resume c.controllers c.clock event = step
        at hr hcs
      cases hr with
      | orphan => exact same hcs
      | goes hd hr | ends hd hr =>
        exact counter_le_set hd hcs fun _ => UInt64.le_of_eq hr.podCounter.symm
    | watcher o w =>
      have hr := watches c.controllers c.clock o w event
      generalize (Work.watcher o w).resume c.controllers c.clock event = step at hr hcs
      cases hr with
      | orphan => exact same hcs
      | goes hd hr | ends hd hr => exact counter_le_set hd hcs fun _ => hr.podCounter_le
    | seeding o ns =>
      cases event with
      | error e => exact same rfl
      | ok pods =>
        cases hd : c.controllers[o]? with
        | none =>
          apply same
          rw [hcs]
          simp only [Work.resume, hd]
        | some d =>
          simp only [Work.resume, hd] at hcs
          exact counter_le_set hd hcs fun _ => (le_max _ _).1

theorem counter_le_later (h : Execution Step c₀ history c)
    (hb : ∀ moment ∈ history, (moment.1.counter owner).toNat < longBound - 1) :
    c₀.counter owner ≤ c.counter owner := by
  induction h with
  | start => exact UInt64.le_refl _
  | next before last ih =>
    have hearlier := ih fun moment hm => hb moment (List.mem_cons_of_mem _ hm)
    exact UInt64.le_trans hearlier (last.counter_le (hb _ List.mem_cons_self))

/-- What a step of a reconciliation makes of the counter. -/
theorem Step.counts {id : Nat} {told : Option Nat} {key : ObjectKey} {stage : Reconcile.Stage}
    {event : (Reconcile.mk key stage).wait.Event} {d : Controller}
    (h : c.Step (.resume id (.reconcile owner told ⟨key, stage⟩) event) c')
    (hd : c.controllers[owner]? = some d) :
    ∃ d' turn, Reconcile.Resumes d c.clock key stage event d' turn ∧
      c'.counter owner = d'.podCounter := by
  have hr := reconciles c.controllers c.clock owner told key stage event
  have hcs := h.controllers
  generalize (Work.reconcile owner told ⟨key, stage⟩).resume c.controllers c.clock event = step
    at hr hcs
  cases hr with
  | orphan hnone =>
    rw [hd] at hnone
    cases hnone
  | @turns _ d' _ turn hsome hr _ _ hp =>
    rw [hd] at hsome
    cases hsome
    exact ⟨d', turn, hr, by rw [set_counter owner hd hcs, if_pos rfl, hp]⟩

/-- The number in a name, if it has one, is not above the counter of a controller. -/
def Passed (c : Operator) (owner : Nat) (name : String) : Prop :=
  ∀ n, Job.podIndex? name = some n → n ≤ c.counter owner

theorem Passed.later (hp : Passed c₀ owner name) (h : Execution Step c₀ history c)
    (hb : ∀ moment ∈ history, (moment.1.counter owner).toNat < longBound - 1) :
    Passed c owner name :=
  fun n hn => UInt64.le_trans (hp n hn) (counter_le_later h hb)

theorem Passed.ne (hp : Passed c owner name) (hb : (c.counter owner).toNat < longBound - 1) :
    name ≠ Job.podName (c.counter owner + 1) := by
  rintro rfl
  have hle := UInt64.le_iff_toNat_le.mp (hp _ (Job.podIndex?_podName _))
  rw [toNat_next hb] at hle
  omega

theorem Step.given (h : c.Step m c') (hg : given? owner (c, m) = some name) :
    name = Job.podName (c.counter owner + 1) ∧ Passed c' owner name := by
  obtain ⟨id, told, key, run, claim, u, event, stored, d, rfl, hu, hd, rfl⟩ := given?_eq_some hg
  rw [counter_eq hd]
  refine ⟨rfl, fun n hn => ?_⟩
  rw [Job.podIndex?_podName] at hn
  obtain ⟨d', turn, hr, hc⟩ := h.counts hd
  rw [hc]
  cases hr with
  | deploy | unbuilt =>
    cases hn
    exact UInt64.le_refl _
  | announcing hu' | unannounced hu' =>
    rw [hu] at hu'
    cases hu'

theorem Step.adopted (h : c.Step m c') {d : Controller} (hd : c.controllers[owner]? = some d)
    (ha : adopted? owner m = some name) : Passed c' owner name := by
  obtain ⟨id, told, key, run, claim, pod, found, rfl, rfl⟩ := adopted?_eq_some ha
  obtain ⟨d', turn, hr, hc⟩ := h.counts hd
  intro n hn
  rw [hc]
  cases hr with
  | adopt | adoptLate => exact d.number_le_sawPodName hn

theorem Step.seeded {ns : String} {pods : List Pod} (h : c.Step m c') {d : Controller}
    (hd : c.controllers[owner]? = some d) (hs : m.taken? i Work.seeding? = some (owner, ns, pods)) :
    ∀ pod ∈ pods, Passed c' owner pod.metadata.name := by
  intro pod hm n hn
  refine UInt64.le_trans ((highestNumber pods).bound hm hn) ?_
  obtain ⟨work, event, rfl, hview⟩ := Move.taken?_eq_some hs
  have hcs := h.controllers
  unfold Work.seeding? at hview
  split at hview
  · cases hview
    simp only [Work.resume, hd] at hcs
    rw [set_counter owner hd hcs, if_pos rfl]
    exact (le_max _ _).2
  · rename_i o number ns token ticker known initial seeded pods
    cases hview
    have hw := watches c.controllers c.clock owner
      ⟨number, ns, token, ticker, known, initial, seeded, .seeding⟩ (.ok pods)
    generalize (Work.watcher _ _).resume _ _ _ = step at hw hcs
    cases hw with
    | orphan hnone =>
      rw [hd] at hnone
      cases hnone
    | goes hd' hr =>
      rw [hd] at hd'
      cases hd'
      cases hr
      rw [set_counter owner hd hcs, if_pos rfl]
      exact (le_max _ _).2
    | ends hd' hr => cases hr
  · cases hview

/-! ## Fresh names -/

theorem given_fresh (h : Execution Step {} history c) (hs : c.Step m c')
    (hb : ∀ moment ∈ (c, m) :: history, (moment.1.counter owner).toNat < longBound - 1)
    (hg : given? owner (c, m) = some name) :
    ∀ moment ∈ history, given? owner moment ≠ some name ∧ adopted? owner moment.2 ≠ some name := by
  intro ⟨s, x⟩ hm
  obtain ⟨later, earlier, rfl⟩ := List.append_of_mem hm
  obtain ⟨mid, hearlier, hx, hlater⟩ := h.split
  have hlast := hb _ List.mem_cons_self
  have hrest := fun moment hm => hb moment (List.mem_cons_of_mem _ (List.mem_append_left _ hm))
  have hname := (hs.given hg).1
  refine ⟨fun hgiven => ?_, fun hadopted => ?_⟩
  · exact ((hx.given hgiven).2.later hlater hrest).ne hlast hname
  · obtain ⟨id, told, key, run, claim, pod, found, rfl, _⟩ := adopted?_eq_some hadopted
    obtain ⟨d, hd⟩ := employed hearlier hx.1 nofun
    exact ((hx.adopted hd hadopted).later hlater hrest).ne hlast hname

theorem listed_fresh (h : Execution Step c₀ history c) (hs : c.Step m c')
    (hb : ∀ moment ∈ (c, m) :: history, (moment.1.counter owner).toNat < longBound - 1)
    {pods : List Pod} (hp : ∀ pod ∈ pods, Passed c₀ owner pod.metadata.name)
    (hg : given? owner (c, m) = some name) : ∀ pod ∈ pods, pod.metadata.name ≠ name := by
  rintro pod hm rfl
  have hrest := fun moment hm => hb moment (List.mem_cons_of_mem _ hm)
  exact ((hp pod hm).later h hrest).ne (hb _ List.mem_cons_self) (hs.given hg).1

theorem Step.named (h : c.Step m c') (hn : c'.naming? owner i = some name) :
    c.naming? owner i = some name ∨ given? owner (c, m) = some name := by
  obtain ⟨told, key, run, claim, pod, answer, hw⟩ := naming?_eq_some hn
  cases h.waits hw with
  | kept _ hbefore | received hbefore => exact .inl (naming?_of_waiting hbefore)
  | resumed _ hg =>
    cases hg with
    | reconcile hd hr =>
      cases hr with
      | deploy hu =>
        right
        rw [given?]
        simp only [hu, if_pos, hd]
        rfl
  | started _ hm => cases hm
  | spawned _ _ hspawn => cases hspawn

/-- No name is given out in a move that starts a counter. -/
theorem Step.unnamed {id : Nat} {listing : Nat × String × List Pod} (h : c.Step m c')
    (hs : m.taken? id Work.seeding? = some listing) (hnone : c.naming? owner i = none) :
    c'.naming? owner i = none := by
  refine Option.eq_none_iff_forall_ne_some.mpr fun name hn => ?_
  rcases h.named hn with hn | hg
  · rw [hnone] at hn
    cases hn
  · obtain ⟨_, _, _, _, _, _, _, _, _, rfl, _⟩ := given?_eq_some hg
    rw [Move.taken?] at hs
    split at hs <;> cases hs

/-- A name under which a reconciliation creates a pod, and which it has not had before, has been
given out in between. -/
theorem given_since (h : Execution Step c₀ history c) (hnone : c₀.naming? owner i = none)
    (hn : c.naming? owner i = some name) : ∃ later s x earlier,
      history = later ++ (s, x) :: earlier ∧ given? owner (s, x) = some name := by
  induction h with
  | start =>
    rw [hnone] at hn
    cases hn
  | @next history s s' x before last ih =>
    rcases last.named hn with hbefore | hg
    · obtain ⟨later, s₁, x₁, earlier, rfl, hg⟩ := ih hbefore
      exact ⟨_ :: later, s₁, x₁, earlier, rfl, hg⟩
    · exact ⟨[], s, x, history, rfl, hg⟩

/-- A reconciliation that was given the name for its pod after pods were listed has the name of none
of them. -/
theorem named_fresh (h : Execution Step c₀ history c)
    (hb : ∀ moment ∈ history, (moment.1.counter owner).toNat < longBound - 1) {pods : List Pod}
    (hp : ∀ pod ∈ pods, Passed c₀ owner pod.metadata.name) (hnone : c₀.naming? owner i = none)
    (hn : c.naming? owner i = some name) : ∀ pod ∈ pods, pod.metadata.name ≠ name := by
  obtain ⟨later, s, x, earlier, rfl, hg⟩ := given_since h hnone hn
  obtain ⟨mid, hearlier, hx, _⟩ := h.split
  exact listed_fresh hearlier hx (fun moment hm => hb moment (List.mem_append_right _ hm)) hp hg

theorem no_wraps (h : Execution Step c₀ history c)
    (hb : ∀ moment ∈ history, (moment.1.counter owner).toNat < longBound - 1) :
    ∀ moment ∈ history, wraps owner moment = false := by
  intro ⟨s, x⟩ hm
  obtain ⟨later, earlier, rfl⟩ := List.append_of_mem hm
  obtain ⟨mid, _, hx, _⟩ := h.split
  refine decide_eq_false (UInt64.not_lt.mpr ?_)
  rw [← hx.2]
  exact hx.counter_le (hb _ hm)

end Operator

end CertRuns
