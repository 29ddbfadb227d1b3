import CertRuns.Proofs.Site.FreshNames

/-!
# The successor of the highest number

The number that a controller gives out next is the successor of the highest one that it has seen: in
the names of pods that it has listed to start its counter, in the names of pods that it has adopted,
and in the names that it has given out. This holds as long as it has not seen the greatest number of
64 bits, which anybody may put into the name of a pod; after that numbers start again from zero.

* `seeded?`, `learned`, `seen` : the pods that a counter is started with, the names of which a
  controller takes note in a move, and the numbers in those of a history;
* `Step.counts_learned` : what a move makes of a counter, by the names that are noted;
* `counter_eq_highest` : so the counter is the highest number that has been seen;
* `successor_iff` : the number that is given out next.
-/

namespace CertRuns

open Rehearsal (Work)

/-! ## The highest of numbers -/

/-- The greatest number of 64 bits. -/
def lastNumber : UInt64 := 18446744073709551615

/-- The highest of numbers, zero if there are none. -/
def highestOf (l : List UInt64) : UInt64 := l.foldl max 0

theorem highestOf_append (l l' : List UInt64) :
    highestOf (l ++ l') = max (highestOf l) (highestOf l') := by
  have hfold (l : List UInt64) (a : UInt64) : l.foldl max a = max a (highestOf l) := by
    induction l generalizing a with
    | nil => exact UInt64.toNat_inj.mp (by simp [highestOf, toNat_max])
    | cons b l ih =>
      have hrest : highestOf (b :: l) = max (max 0 b) (highestOf l) := ih (max 0 b)
      rw [List.foldl_cons, ih, hrest]
      refine UInt64.toNat_inj.mp ?_
      simp only [toNat_max, UInt64.toNat_zero]
      omega
  rw [highestOf, List.foldl_append, hfold]
  rfl

theorem le_highestOf {l : List UInt64} {n : UInt64} (h : n ∈ l) : n ≤ highestOf l :=
  (le_foldl_max l 0).2 n h

theorem highestOf_ne_last {l : List UInt64} (h : lastNumber ∉ l) : highestOf l ≠ lastNumber := by
  intro hlast
  rcases foldl_max_mem l 0 with hzero | hmem
  · have hfalse : (0 : UInt64) = lastNumber := hzero.symm.trans hlast
    exact absurd hfalse (by decide)
  · exact h (hlast ▸ hmem)

theorem toNat_lt_last {n : UInt64} (h : n ≠ lastNumber) : n.toNat < longBound - 1 := by
  have hne : n.toNat ≠ lastNumber.toNat := fun hn => h (UInt64.toNat_inj.mp hn)
  have hlast : lastNumber.toNat = longBound - 1 := by decide
  have hlt : n.toNat < longBound := n.toNat_lt
  omega

theorem Controller.podCounter_sawPodName (d : Controller) (name : String) :
    (d.sawPodName name).podCounter =
      max d.podCounter (highestOf ([name].filterMap Job.podIndex?)) := by
  unfold sawPodName
  cases h : Job.podIndex? name with
  | none => exact UInt64.toNat_inj.mp (by simp [h, highestOf, toNat_max])
  | some n => exact UInt64.toNat_inj.mp (by simp [h, highestOf, toNat_max, sawPodNumber])

namespace Operator

variable {c c' : Operator} {m : Move} {owner : Nat} {history : List (Operator × Move)}

/-! ## Names of which a controller takes note -/

def seeded? (owner : Nat) : Operator × Move → Option (List Pod)
  | (c, .resume _ work event) =>
    match work.seeding? event with
    | some (o, _, pods) => if o = owner then c.controllers[o]?.map fun _ => pods else none
    | none => none
  | _ => none

def learned (owner : Nat) (moment : Operator × Move) : List String :=
  ((seeded? owner moment).getD []).map (·.metadata.name) ++
    ((adopted? owner moment.2).toList ++ (given? owner moment).toList)

/-- The numbers in the names of which a controller has taken note in a history. -/
def seen (owner : Nat) (history : List (Operator × Move)) : List UInt64 :=
  (history.flatMap (learned owner)).filterMap Job.podIndex?

theorem seen_cons (moment : Operator × Move) (history : List (Operator × Move)) :
    seen owner (moment :: history) =
      (learned owner moment).filterMap Job.podIndex? ++ seen owner history := by
  rw [seen, List.flatMap_cons, List.filterMap_append, seen]

theorem seeded?_eq_some {pods : List Pod} (h : seeded? owner (c, m) = some pods) :
    ∃ id work event ns d, m = .resume id work event ∧
      work.seeding? event = some (owner, ns, pods) ∧ c.controllers[owner]? = some d := by
  unfold seeded? at h
  split at h
  · rename_i id work event heq
    cases heq
    split at h
    · rename_i o ns pods' hs
      split at h
      · rename_i ho
        subst ho
        obtain ⟨d, hd, rfl⟩ := Option.map_eq_some_iff.mp h
        exact ⟨id, work, event, ns, d, rfl, hs, hd⟩
      · cases h
    · cases h
  · cases h

theorem learned_of_none (hs : seeded? owner (c, m) = none) (ha : adopted? owner m = none)
    (hg : given? owner (c, m) = none) : learned owner (c, m) = [] := by
  rw [learned, hs, ha, hg]
  rfl

theorem learned_of_seeded {pods : List Pod} (hs : seeded? owner (c, m) = some pods)
    (ha : adopted? owner m = none) (hg : given? owner (c, m) = none) :
    learned owner (c, m) = pods.map (·.metadata.name) := by
  rw [learned, hs, ha, hg]
  exact List.append_nil _

theorem learned_adopted {id : Nat} {told : Option Nat} {key pod : ObjectKey} {run : Run}
    {claim : RunClaim} {found : Pod} :
    learned owner (c, .resume id (.reconcile owner told ⟨key, .inspecting run claim pod⟩)
      (.ok found)) = [pod.name] := by
  have ha : adopted? owner (.resume id (.reconcile owner told ⟨key, .inspecting run claim pod⟩)
      (.ok found)) = some pod.name := if_pos rfl
  rw [learned, ha]
  rfl

theorem highestOf_names (pods : List Pod) :
    highestOf ((pods.map (·.metadata.name)).filterMap Job.podIndex?) = highestPodNumber pods := by
  rw [List.filterMap_map]
  rfl

/-! ## What a move makes of a counter -/

/-- What a move makes of the counter of a controller. -/
inductive Counts (c : Operator) (owner : Nat) (m : Move) (c' : Operator) : Prop
  /-- It comes to the numbers of which note is taken. -/
  | raised (h : c'.counter owner = max (c.counter owner)
      (highestOf ((learned owner (c, m)).filterMap Job.podIndex?)))
  /-- It goes one further, to the number in the name that is given out. -/
  | stepped (hn : learned owner (c, m) = [Job.podName (c.counter owner + 1)])
      (h : c'.counter owner = c.counter owner + 1)

theorem Counts.kept (hn : learned owner (c, m) = []) (h : c'.counter owner = c.counter owner) :
    Counts c owner m c' := by
  refine .raised ?_
  rw [hn, h]
  exact UInt64.toNat_inj.mp (by simp [highestOf, toNat_max])

/-- A task that works for another controller, or for none. -/
theorem Counts.other {id : Nat} {work : Work} {event : work.wait.Event}
    (hs : ∀ ns pods, work.seeding? event ≠ some (owner, ns, pods))
    (hr : ∀ told r, work ≠ .reconcile owner told r) (h : c'.counter owner = c.counter owner) :
    Counts c owner (.resume id work event) c' := by
  refine .kept (learned_of_none ?_ ?_ ?_) h
  · refine Option.eq_none_iff_forall_ne_some.mpr fun pods hp => ?_
    obtain ⟨_, _, _, ns, d, heq, hseed, _⟩ := seeded?_eq_some hp
    cases heq
    exact hs _ _ hseed
  · refine Option.eq_none_iff_forall_ne_some.mpr fun name ha => ?_
    obtain ⟨_, _, _, _, _, _, _, heq, _⟩ := adopted?_eq_some ha
    cases heq
    exact hr _ _ rfl
  · refine Option.eq_none_iff_forall_ne_some.mpr fun name hg => ?_
    obtain ⟨_, _, _, _, _, _, _, _, _, heq, _⟩ := given?_eq_some hg
    cases heq
    exact hr _ _ rfl

theorem Step.counts_reconcile {id o : Nat} {told : Option Nat} {key : ObjectKey}
    {stage : Reconcile.Stage} {event : (Reconcile.mk key stage).wait.Event}
    (hx : Execution Step {} history c)
    (h : c.Step (.resume id (.reconcile o told ⟨key, stage⟩) event) c') :
    Counts c owner (.resume id (.reconcile o told ⟨key, stage⟩) event) c' := by
  have hr := reconciles c.controllers c.clock o told key stage event
  have hcs := h.controllers
  generalize (Work.reconcile o told ⟨key, stage⟩).resume c.controllers c.clock event = step
    at hr hcs
  by_cases ho : o = owner
  · subst ho
    cases hr with
    | orphan hnone =>
      refine .kept (learned_of_none rfl ?_ ?_) (counter_of_eq hcs)
      · refine Option.eq_none_iff_forall_ne_some.mpr fun name ha => ?_
        obtain ⟨_, _, _, _, _, _, _, heq, _⟩ := adopted?_eq_some ha
        cases heq
        obtain ⟨d, hd⟩ := employed hx h.1 nofun
        rw [hnone] at hd
        cases hd
      · refine Option.eq_none_iff_forall_ne_some.mpr fun name hg => ?_
        obtain ⟨_, _, _, _, _, _, _, _, d, heq, _, hd, _⟩ := given?_eq_some hg
        rw [hnone] at hd
        cases hd
    | @turns d d' d'' turn hd hr _ _ hp =>
      have hbefore : c.counter o = d.podCounter := counter_eq hd
      have hafter : c'.counter o = d'.podCounter := by rw [set_counter o hd hcs, if_pos rfl, hp]
      cases hr with
      | deploy hu | unbuilt hu =>
        refine .stepped ?_ (hbefore ▸ hafter)
        rw [hbefore]
        simp only [learned, given?, hu, if_pos, hd]
        rfl
      | @adopt run claim pod found | @adoptLate run claim pod found =>
        refine .raised ?_
        rw [learned_adopted, hbefore, hafter]
        exact d.podCounter_sawPodName pod.name
      | announcing hu | unannounced hu =>
        refine .kept (learned_of_none rfl rfl ?_) (hafter.trans hbefore.symm)
        simp only [given?, hu]
      | dropped | cleaning =>
        exact .kept rfl (by rw [hafter, hbefore]; simp)
      | _ => exact .kept rfl (hafter.trans hbefore.symm)
  · refine .other (fun _ _ he => ?_) (fun told r he => ?_) ?_
    · cases he
    · cases he
      exact ho rfl
    · cases hr with
      | orphan => exact counter_of_eq hcs
      | turns hd => rw [set_counter owner hd hcs, if_neg fun he => ho he.symm]

theorem Step.counts_seeding {id o : Nat} {ns : String}
    {event : (Work.seeding o ns).wait.Event} (h : c.Step (.resume id (.seeding o ns) event) c') :
    Counts c owner (.resume id (.seeding o ns) event) c' := by
  have hcs := h.controllers
  cases event with
  | error e => exact .kept rfl (counter_of_eq hcs)
  | ok pods =>
    cases hd : c.controllers[o]? with
    | none =>
      simp only [Work.resume, hd] at hcs
      refine .kept (learned_of_none ?_ rfl rfl) (counter_of_eq hcs)
      simp [seeded?, Work.seeding?, hd]
    | some d =>
      simp only [Work.resume, hd] at hcs
      by_cases ho : o = owner
      · subst ho
        have hs : seeded? o (c, .resume id (.seeding o ns) (.ok pods)) = some pods := by
          simp [seeded?, Work.seeding?, hd]
        refine .raised ?_
        rw [learned_of_seeded hs rfl rfl, highestOf_names, set_counter o hd hcs, if_pos rfl,
          counter_eq hd]
        rfl
      · refine .other (fun ns' pods' he => ?_) (fun told r he => ?_) ?_
        · have heq : (o, ns, pods) = (owner, ns', pods') := Option.some.inj he
          exact ho (congrArg Prod.fst heq)
        · cases he
        · rw [set_counter owner hd hcs, if_neg fun he => ho he.symm]

theorem Step.counts_watcher {id o : Nat} {w : Watcher} {event : w.wait.Event}
    (h : c.Step (.resume id (.watcher o w) event) c') :
    Counts c owner (.resume id (.watcher o w) event) c' := by
  have hr := watches c.controllers c.clock o w event
  have hcs := h.controllers
  generalize (Work.watcher o w).resume c.controllers c.clock event = step at hr hcs
  by_cases ho : o = owner
  · subst ho
    have hkept {d d' : Controller} (hd : c.controllers[o]? = some d)
        (hcs : c'.controllers = c.controllers.set o d') (hs : seeded? o
          (c, .resume id (.watcher o w) event) = none) (hp : d'.podCounter = d.podCounter) :
        Counts c o (.resume id (.watcher o w) event) c' := by
      refine .kept (learned_of_none hs rfl rfl) ?_
      rw [set_counter o hd hcs, if_pos rfl, counter_eq hd, hp]
    cases hr with
    | orphan hnone =>
      refine .kept (learned_of_none ?_ rfl rfl) (counter_of_eq hcs)
      refine Option.eq_none_iff_forall_ne_some.mpr fun pods hp => ?_
      obtain ⟨_, _, _, _, d, _, _, hd⟩ := seeded?_eq_some hp
      rw [hnone] at hd
      cases hd
    | @goes d d' w' events hd hr =>
      cases hr with
      | @seeds number ns token ticker known initial seeded pods =>
        have hs : seeded? o (c, .resume id (.watcher o
            ⟨number, ns, token, ticker, known, initial, seeded, .seeding⟩) (.ok pods)) =
            some pods := by
          simp [seeded?, Work.seeding?, hd]
        refine .raised ?_
        rw [learned_of_seeded hs rfl rfl, highestOf_names, set_counter o hd hcs, if_pos rfl,
          counter_eq hd]
        rfl
      | _ => exact hkept hd hcs rfl rfl
    | @ends d d' hd hr => cases hr with
      | _ => exact hkept hd hcs rfl rfl
  · refine .other (fun ns pods he => ?_) (fun told r he => ?_) ?_
    · unfold Work.seeding? at he
      split at he
      · rename_i hw _
        cases hw
      · rename_i hw _
        cases hw
        cases he
        exact ho rfl
      · cases he
    · cases he
    · cases hr with
      | orphan => exact counter_of_eq hcs
      | goes hd | ends hd => rw [set_counter owner hd hcs, if_neg fun he => ho he.symm]

theorem Step.counts_learned (hx : Execution Step {} history c) (h : c.Step m c') :
    Counts c owner m c' := by
  have same (hn : learned owner (c, m) = []) (hcs : (c.next m).controllers = c.controllers) :
      Counts c owner m c' := by
    refine .kept hn (counter_of_eq ?_)
    rw [h.2, hcs]
  cases m with
  | pass | raise | start | receive | outside => exact same rfl rfl
  | install settings retry =>
    refine .kept rfl ?_
    rw [h.2]
    unfold counter next
    rw [List.getElem?_append]
    split
    · rfl
    · rename_i hlt
      rw [List.getElem?_eq_none (Nat.not_lt.mp hlt), List.getElem?_singleton]
      split <;> rfl
  | shutDown o =>
    refine .kept rfl ?_
    rw [h.2]
    unfold counter next
    rw [List.getElem?_modify]
    cases c.controllers[owner]? with
    | none => rfl
    | some d =>
      simp only [Option.map_eq_map, Option.map_some]
      split <;> rfl
  | resume id work event =>
    cases work with
    | call => exact same rfl rfl
    | update | completion | harvest =>
      refine same rfl ?_
      simp only [next, follow, Work.resume]
      split <;> rfl
    | reconcile o told r => exact h.counts_reconcile hx
    | monitor o r =>
      have hr := follows c.controllers c.clock o r.key r.stage event
      have hcs := h.controllers
      generalize (Work.monitor o ⟨r.key, r.stage⟩).resume c.controllers c.clock event = step
        at hr hcs
      refine .kept rfl ?_
      cases hr with
      | orphan => exact counter_of_eq hcs
      | goes hd hr | ends hd hr =>
        rw [set_counter owner hd hcs]
        split
        · rename_i ho
          rw [ho, counter_eq hd, hr.podCounter]
        · rfl
    | watcher o w => exact h.counts_watcher
    | seeding o ns => exact h.counts_seeding

/-! ## The counter and the numbers that were seen -/

/-- As long as a controller has not seen the last number, its counter is the highest one that it has
seen. -/
theorem counter_eq_highest (h : Execution Step {} history c)
    (hlast : lastNumber ∉ seen owner history) :
    c.counter owner = highestOf (seen owner history) := by
  induction h with
  | start => rfl
  | @next history c c' m before last ih =>
    rw [seen_cons, List.mem_append, not_or] at hlast
    have hc := ih hlast.2
    rw [seen_cons, highestOf_append, ← hc]
    cases last.counts_learned before with
    | raised h =>
      rw [h]
      exact UInt64.toNat_inj.mp (by simp only [toNat_max]; omega)
    | stepped hn h =>
      have hlt := toNat_lt_last (highestOf_ne_last hlast.2)
      rw [← hc] at hlt
      rw [hn, h]
      refine UInt64.toNat_inj.mp ?_
      simp [highestOf, Job.podIndex?_podName, toNat_max, toNat_next hlt]

theorem Step.counter_given (h : c.Step m c') {name : String}
    (hg : given? owner (c, m) = some name) : c'.counter owner = c.counter owner + 1 := by
  obtain ⟨id, told, key, run, claim, u, event, stored, d, rfl, hu, hd, -⟩ := given?_eq_some hg
  obtain ⟨d', turn, hr, hc⟩ := h.counts hd
  rw [hc, counter_eq hd]
  cases hr with
  | deploy | unbuilt => rfl
  | announcing hu' | unannounced hu' =>
    rw [hu] at hu'
    cases hu'

theorem Step.not_wraps_of_unseen (hx : Execution Step {} history c) (h : c.Step m c')
    (hlast : lastNumber ∉ seen owner history) : wraps owner (c, m) = false := by
  refine decide_eq_false (UInt64.not_lt.mpr ?_)
  rw [← h.2]
  change c.counter owner ≤ c'.counter owner
  have hcounts : Counts c owner m c' := h.counts_learned hx
  cases hcounts with
  | raised h =>
    rw [h]
    exact (le_max _ _).1
  | stepped _ h =>
    have hlt := toNat_lt_last (highestOf_ne_last hlast)
    rw [← counter_eq_highest hx hlast] at hlt
    rw [h, UInt64.le_iff_toNat_le, toNat_next hlt]
    omega

/-- A counter that has not wrapped around is not below any number that its controller has seen. -/
theorem seen_le_counter (h : Execution Step {} history c)
    (hwrap : ∀ moment ∈ history, wraps owner moment = false) :
    ∀ k ∈ seen owner history, k ≤ c.counter owner := by
  induction h with
  | start => exact nofun
  | @next history c c' m before last ih =>
    have hearlier := ih fun moment hm => hwrap moment (List.mem_cons_of_mem _ hm)
    have hle := not_wraps last (hwrap _ List.mem_cons_self)
    intro k hk
    rw [seen_cons, List.mem_append] at hk
    rcases hk with hk | hk
    · cases last.counts_learned before with
      | raised h =>
        rw [h]
        exact UInt64.le_trans (le_highestOf hk) (le_max _ _).2
      | stepped hn h =>
        rw [hn] at hk
        simp only [List.filterMap_cons, Job.podIndex?_podName, List.filterMap_nil,
          List.mem_singleton] at hk
        rw [h, hk]
        exact UInt64.le_refl _
    · exact UInt64.le_trans (hearlier k hk) hle

theorem no_wraps_iff (h : Execution Step {} history c) (hs : c.Step m c') {name : String}
    (hg : given? owner (c, m) = some name) :
    (∀ moment ∈ (c, m) :: history, wraps owner moment = false) ↔
      lastNumber ∉ seen owner history := by
  constructor
  · intro hwrap hmem
    -- the counter has come to the last number, so this move takes it to zero
    have hle := seen_le_counter h (fun moment hm => hwrap moment (List.mem_cons_of_mem _ hm)) _ hmem
    have hnext := not_wraps hs (hwrap _ List.mem_cons_self)
    have hcounter : c.counter owner = lastNumber := by
      rw [UInt64.le_iff_toNat_le] at hle
      have hlt := (c.counter owner).toNat_lt
      have hlast : lastNumber.toNat = 2 ^ 64 - 1 := by decide
      exact UInt64.toNat_inj.mp (by omega)
    rw [hs.counter_given hg, hcounter] at hnext
    exact absurd hnext (by decide)
  · intro hlast
    refine List.forall_mem_cons.mpr ⟨hs.not_wraps_of_unseen h hlast, fun ⟨s, x⟩ hm => ?_⟩
    obtain ⟨later, earlier, rfl⟩ := List.append_of_mem hm
    obtain ⟨mid, hearlier, hx, _⟩ := h.split
    refine hx.not_wraps_of_unseen hearlier fun hmem => hlast ?_
    simp only [seen, List.flatMap_append, List.flatMap_cons, List.filterMap_append,
      List.mem_append] at hmem ⊢
    exact .inr (.inr hmem)

/-- The number that a controller gives out next follows the highest one that it has seen, is above
all that it has seen, and its counter has not wrapped around, iff it has not seen the last number of
64 bits. Right after the last number comes zero. -/
theorem successor_iff (h : Execution Step {} history c) (hs : c.Step m c') {name : String}
    (hg : given? owner (c, m) = some name) :
    ∃ n, name = Job.podName n ∧
      (n.toNat = (highestOf (seen owner history)).toNat + 1 ↔ lastNumber ∉ seen owner history) ∧
      ((∀ k ∈ seen owner history, k < n) ↔ lastNumber ∉ seen owner history) ∧
      ((∀ moment ∈ (c, m) :: history, wraps owner moment = false) ↔
        lastNumber ∉ seen owner history) ∧
      (c.counter owner = lastNumber → n = 0) := by
  have hlastNat : lastNumber.toNat = 2 ^ 64 - 1 := by decide
  have hlt := (c.counter owner + 1).toNat_lt
  have hfollows (hlast : lastNumber ∉ seen owner history) :
      (c.counter owner + 1).toNat = (highestOf (seen owner history)).toNat + 1 := by
    have hcounter := counter_eq_highest h hlast
    rw [hcounter, toNat_next (toNat_lt_last (highestOf_ne_last hlast))]
  refine ⟨c.counter owner + 1, (hs.given hg).1, ⟨fun hn hmem => ?_, hfollows⟩,
    ⟨fun habove hmem => ?_, fun hlast k hk => ?_⟩, no_wraps_iff h hs hg, fun hcounter => ?_⟩
  · have hle := UInt64.le_iff_toNat_le.mp (le_highestOf hmem)
    omega
  · have hbelow := UInt64.lt_iff_toNat_lt.mp (habove _ hmem)
    omega
  · have hle := UInt64.le_iff_toNat_le.mp (le_highestOf hk)
    rw [UInt64.lt_iff_toNat_lt, hfollows hlast]
    omega
  · rw [hcounter]
    decide

/-- A controller starts its counter right below the last number, and is about to name a pod. -/
def nearlyFull : List (Site × Move) × Site :=
  Site.play (.install Sample.settings {} ::
    Site.stranger 0 "cnf-job-run-18446744073709551614" ++ [.seed 0 "ops"] ++ Sample.exchanges 1 1 ++
    [.outside (.applyRun .epoch (Sample.run "first")), .reconcile 0 Sample.key] ++
    Sample.exchanges 2 2 ++ [.serve 2 .epoch])

/-- The last number is given out as the successor of the one before. -/
theorem successor_iff_nearlyFull :
    let history := Site.operatorHistory nearlyFull.1
    let last := nearlyFull.2.act (.resume 2)
    Execution Step {} history nearlyFull.2.operator ∧
      given? 0 (nearlyFull.2.operator, last.1) = some "cnf-job-run-18446744073709551615" ∧
      seen 0 history = [18446744073709551614] ∧
      ∃ n, "cnf-job-run-18446744073709551615" = Job.podName n ∧
        n.toNat = (highestOf (seen 0 history)).toNat + 1 ∧ ∀ k ∈ seen 0 history, k < n := by
  intro history last
  have h : Execution Step {} history nearlyFull.2.operator :=
    Site.operator_execution (Site.play_execution _)
  have hs : nearlyFull.2.Step last.1 last.2 := Site.act_step nearlyFull.2 (.resume 2)
  have hg : given? 0 (nearlyFull.2.operator, last.1) =
      some "cnf-job-run-18446744073709551615" := by decide +kernel
  have hseen : seen 0 history = [18446744073709551614] := by decide +kernel
  have hlast : lastNumber ∉ seen 0 history := by
    rw [hseen]
    decide
  obtain ⟨n, hname, hfollows, habove, _⟩ := successor_iff h hs.1 hg
  exact ⟨h, hg, hseen, n, hname, hfollows.mpr hlast, habove.mpr hlast⟩

/-- A controller lists pods of others with the first and the last number, gives out a name, and is
about to give out another one. -/
def full : List (Site × Move) × Site :=
  Site.play (.install Sample.settings {} :: Site.stranger 0 "cnf-job-run-1" ++
    Site.stranger 1 "cnf-job-run-18446744073709551615" ++ [.seed 0 "ops"] ++ Sample.exchanges 2 1 ++
    [.outside (.applyRun .epoch (Sample.run "first")), .reconcile 0 Sample.key] ++
    Sample.exchanges 3 3 ++
    [.outside (.applyRun .epoch Sample.otherRun), .reconcile 0 Sample.otherKey] ++
    Sample.exchanges 4 2 ++ [.serve 4 .epoch])

/-- It is not so that the number that is given out is always above all that have been seen: after
the last one, the name of a pod is given out that was listed. -/
theorem not_always_above :
    ¬ ∀ (history : List (Operator × Move)) (c c' : Operator) (m : Move) (owner : Nat) (n : UInt64),
      Execution Step {} history c → c.Step m c' →
      given? owner (c, m) = some (Job.podName n) → ∀ k ∈ seen owner history, k < n := by
  intro above
  have hg : given? 0 (full.2.operator, (full.2.act (.resume 4)).1) = some (Job.podName 1) := by
    decide +kernel
  have hmem : (1 : UInt64) ∈ seen 0 (Site.operatorHistory full.1) := by decide +kernel
  have hlt := above _ _ _ _ 0 1 (Site.operator_execution (Site.play_execution _))
    (Site.act_step full.2 (.resume 4)).1 hg 1 hmem
  exact absurd hlt (by decide)

end Operator

end CertRuns
