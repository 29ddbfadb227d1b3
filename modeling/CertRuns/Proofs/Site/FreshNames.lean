import CertRuns.Proofs.Cluster.Calls
import CertRuns.Proofs.Operator.Allocation
import CertRuns.Proofs.Site.Sharing

/-!
# Fresh names for pods

A controller that has listed the pods of its namespace gives out names that none of them has. So if
the cluster has a pod of such a name already, it was made since the listing, and by somebody else:
the controller itself uses no name twice.

* `Store.PodsKeyed` : pods stand under their own keys; `podsKeyed` : they do at every moment;
* `clash?` : the cluster refuses a pod because it is there already;
* `answered` : what a task goes on with it was given in some move; `seeding_listing` : so the pods
  that a counter is started with were listed before;
* `created_between`, `created_by_other` : who has created a pod that was not there before;
* `fresh_names` : the names that a controller gives out once it has listed the pods.
-/

namespace CertRuns

open Rehearsal (Work)

namespace Store

variable {s s' : Store}

def PodsKeyed (s : Store) : Prop := ∀ key pod, s.pods.get? key = some pod → pod.key = key

theorem PodsKeyed.insert (h : s.PodsKeyed) {k : ObjectKey} {pod : Pod}
    (hs : s'.pods = s.pods.insert k pod) (hk : pod.key = k) : s'.PodsKeyed := by
  intro key stored hget
  rw [hs, Table.get?_insert] at hget
  split at hget
  · rename_i he
    cases hget
    rw [hk, he]
  · exact h key stored hget

theorem PodsKeyed.of_eq (h : s.PodsKeyed) (hs : s'.pods = s.pods) : s'.PodsKeyed := by
  intro key pod hget
  rw [hs] at hget
  exact h key pod hget

theorem PodsKeyed.erase (h : s.PodsKeyed) {k : ObjectKey} (hs : s'.pods = s.pods.erase k) :
    s'.PodsKeyed := by
  intro key pod hget
  rw [hs, Table.get?_erase] at hget
  split at hget
  · cases hget
  · exact h key pod hget

theorem PodsKeyed.createPod (h : s.PodsKeyed) (stamp : Stamp) (new : Pod) :
    (s.createPod stamp new).1.PodsKeyed := by
  have hend := s.podCreation stamp new
  generalize s.createPod stamp new = result at hend ⊢
  cases hend with
  | rejected => exact h.of_eq rfl
  | unnamed | taken => exact h
  | created => exact h.insert rfl rfl

theorem PodsKeyed.answers {wait : Wait} {event : wait.Event} (hs : s.PodsKeyed)
    (h : s.Answers s' wait event) : s'.PodsKeyed := by
  cases wait with
  | sleep | pause | look | draw | never => exact hs.of_eq (congrArg Store.pods h)
  | call r =>
    rcases h with ⟨stamp, h⟩ | ⟨_, rfl⟩
    · have hstore : (s.perform stamp r).1 = s' := congrArg Prod.fst h
      rw [← hstore]
      cases r with
      | getRun | listRuns | getPod | listPods => exact hs
      | updateRunStatus run => exact hs.of_eq (pods_updateRunStatus s run)
      | createPod new => exact hs.createPod stamp new
      | deletePod key => exact hs.erase (deletePod_pods s key)
    · exact hs

theorem PodsKeyed.apply (h : s.PodsKeyed) (change : Outside) : (change.apply s).PodsKeyed := by
  cases change with
  | setPodStatus key status =>
    show (s.setPodStatus key status).1.PodsKeyed
    have hend := s.podReport key status
    generalize s.setPodStatus key status = result at hend ⊢
    cases hend with
    | missing => exact h.of_eq rfl
    | @reported pod hp =>
      have hkey : pod.key = key := h key pod hp
      exact h.insert rfl hkey
  | _ => exact h.of_eq rfl

/-- A pod that is there is listed under its name. -/
theorem PodsKeyed.listed (h : s.PodsKeyed) {key : ObjectKey} (hc : s.pods.contains key = true) :
    ∃ pod ∈ s.listPods key.ns, pod.metadata.name = key.name := by
  obtain ⟨pod, hget⟩ := Option.isSome_iff_exists.mp hc
  have hmem : (key, pod) ∈ s.pods.entries := (Table.mem_entries _ _).mpr hget
  refine ⟨pod, List.mem_map.mpr ⟨(key, pod), List.mem_filter.mpr ⟨hmem, by simp⟩, rfl⟩, ?_⟩
  exact congrArg ObjectKey.name (h key pod hget)

end Store

/-- What a task lists to start a counter with are the pods of the namespace. -/
theorem Store.Answers.seeding {s s' : Store} {work : Work} {event : work.wait.Event} {owner : Nat}
    {ns : String} {pods : List Pod} (h : s.Answers s' work.wait event)
    (hview : work.seeding? event = some (owner, ns, pods)) : pods = s.listPods ns ∧ s' = s := by
  unfold Work.seeding? at hview
  split at hview
  · cases hview
    rcases h with ⟨stamp, h⟩ | ⟨⟨e, he⟩, _⟩
    · cases h
      exact ⟨rfl, rfl⟩
    · cases he
  · cases hview
    rcases h with ⟨stamp, h⟩ | ⟨⟨e, he⟩, _⟩
    · cases h
      exact ⟨rfl, rfl⟩
    · cases he
  · cases hview

namespace Site

variable {t t' t₀ : Site} {m : Move} {history : List (Site × Move)} {owner i : Nat}
  {pod : ObjectKey}

/-- The pod that a reconciliation of a controller is about to create for a run of a namespace, if
the cluster has it already and refuses. -/
def clash? (t : Site) (stamp : Stamp) (owner : Nat) (ns : String) (i : Nat) : Option ObjectKey :=
  match t.operator.progress? i with
  | some (.waiting (.reconcile o _ ⟨key, .creating _ _ _ pod⟩) none) =>
    match (t.store.createPod stamp pod).2 with
    | .error (.alreadyExists _ _) => if o = owner ∧ key.ns = ns then some pod.key else none
    | _ => none
  | _ => none

theorem clash?_eq_some {stamp : Stamp} {ns : String}
    (h : t.clash? stamp owner ns i = some pod) :
    ∃ told key run claim name new, t.operator.progress? i = some (.waiting
        (.reconcile owner told ⟨key, .creating run claim name new⟩) none) ∧
      key.ns = ns ∧ new.key = pod ∧ t.store.pods.contains new.key = true := by
  unfold clash? at h
  split at h
  · rename_i hw
    split at h
    · rename_i hexists
      split at h
      · rename_i hown
        obtain ⟨rfl, rfl⟩ := hown
        exact ⟨_, _, _, _, _, _, hw, rfl, Option.some.inj h, Store.createPod_exists hexists⟩
      · cases h
    · cases h
  · cases h

theorem podsKeyed (h : Execution Step {} history t) : t.store.PodsKeyed := by
  induction h with
  | start => exact fun _ _ hget => by cases hget
  | @next history s s' m before last ih =>
    obtain ⟨_, hs⟩ := last
    cases m with
    | receive id work event => exact ih.answers hs
    | outside change =>
      rw [show s'.store = change.apply s.store from hs]
      exact ih.apply change
    | _ =>
      rw [show s'.store = s.store from hs]
      exact ih

theorem answered (h : Execution Step {} history t) {work : Work} {event : work.wait.Event}
    (hw : t.operator.progress? i = some (.waiting work (some event))) :
    ∃ later s earlier, history = later ++ (s, .receive i work event) :: earlier := by
  induction h with
  | start => cases hw
  | @next history s s' x before last ih =>
    cases last.1.waits hw with
    | kept _ hbefore =>
      obtain ⟨later, s₁, earlier, rfl⟩ := ih hbefore
      exact ⟨_ :: later, s₁, earlier, rfl⟩
    | received _ _ he =>
      cases he
      exact ⟨[], s, history, rfl⟩
    | resumed _ _ he | started _ _ he | spawned _ _ _ he => cases he

theorem created_between (h : Execution Step t₀ history t)
    (hfirst : t₀.store.pods.contains pod = false) (hlast : t.store.pods.contains pod = true) :
    ∃ moment ∈ history, ∃ role, moment.2.creator? pod = some role := by
  induction h with
  | start =>
    rw [hfirst] at hlast
    cases hlast
  | @next history s s' m before last ih =>
    rcases (last.contains_pod pod).mp hlast with hc | ⟨hthere, _⟩
    · exact ⟨_, List.mem_cons_self, Option.isSome_iff_exists.mp hc⟩
    · obtain ⟨moment, hm, hc⟩ := ih hthere
      exact ⟨moment, List.mem_cons_of_mem _ hm, hc⟩

/-- If the pod that a reconciliation is about to create is there already, but was not there some
time ago, then somebody else has created it since. -/
theorem created_by_other {since earlier : List (Site × Move)}
    (h : Execution Step {} (since ++ earlier) t) (hsince : Execution Step t₀ since t)
    (hw : ∀ moment ∈ operatorHistory (since ++ earlier), Operator.wraps owner moment = false)
    {told : Option Nat} {key : ObjectKey} {run : Run} {claim : RunClaim} {name : String} {new : Pod}
    (hp : t.operator.progress? i = some (.waiting
      (.reconcile owner told ⟨key, .creating run claim name new⟩) none))
    (hfirst : t₀.store.pods.contains new.key = false)
    (hlast : t.store.pods.contains new.key = true) :
    ∃ moment ∈ since, ∃ role, moment.2.creator? new.key = some role ∧
      role.reconciles owner = false := by
  obtain ⟨moment, hm, role, hc⟩ := created_between hsince hfirst hlast
  refine ⟨moment, hm, role, hc, ?_⟩
  cases role with
  | monitor | other => rfl
  | reconciler o k =>
    refine beq_eq_false_iff_ne.mpr fun ho => ?_
    subst ho
    have hwhole := List.mem_append_left earlier hm
    obtain ⟨later, before, hsplit⟩ := List.append_of_mem hwhole
    have h' := h
    rw [hsplit] at h'
    obtain ⟨_, hbefore, hstep, _⟩ := h'.split
    have hmade : Operator.made? o moment.2 = some name := by
      rw [hstep.made? hbefore hc, creating_key h hp]
    exact (Operator.numbered (operator_execution h) hw).fresh hp (List.mem_map_of_mem hwhole) hmade

theorem seeding_listing {before : List (Site × Move)} {returned : Site} {start : Move} {id : Nat}
    {ns : String} {pods : List Pod} (h : Execution Step {} before returned)
    (hs : returned.Step start t) (hstart : start.taken? id Work.seeding? = some (owner, ns, pods)) :
    ∃ between listed look earlier after, before = between ++ (listed, look) :: earlier ∧
      look.told? id Work.seeding? = some (owner, ns, pods) ∧ pods = listed.store.listPods ns ∧
      listed.store.PodsKeyed ∧ after.store = listed.store ∧
      Execution Step after between returned := by
  obtain ⟨work, event, rfl, hview⟩ := Move.taken?_eq_some hstart
  obtain ⟨between, listed, earlier, rfl⟩ := answered h hs.1.1
  obtain ⟨after, hearlier, hlook, hbetween⟩ := h.split
  obtain ⟨hpods, hstore⟩ := Store.Answers.seeding hlook.2 hview
  refine ⟨between, listed, _, earlier, after, rfl, ?_, hpods, podsKeyed hearlier, hstore, hbetween⟩
  exact (Move.told?_receive work event).trans hview

/-- After a controller has listed the pods of a namespace, the number that it starts its counter
with is the highest in their names, and a name that it gives out is none of theirs, none that it has
given out before, and not that of a pod that it has adopted before. So if the cluster has the pod
already that a reconciliation, named since, is about to create for a run of this namespace, then
somebody else has created it after the listing. -/
theorem fresh_names {later before : List (Site × Move)} {returned : Site} {start : Move} {id : Nat}
    {ns : String} {pods : List Pod} {d : Controller}
    (h : Execution Step {} (later ++ (returned, start) :: before) t) (hs : t.Step m t')
    (hstart : start.taken? id Work.seeding? = some (owner, ns, pods))
    (hd : returned.operator.controllers[owner]? = some d)
    (hb : ∀ moment ∈ (t, m) :: (later ++ (returned, start) :: before),
      (moment.1.operator.counter owner).toNat < longBound - 1) :
    ∃ between listed look earlier, before = between ++ (listed, look) :: earlier ∧
      look.told? id Work.seeding? = some (owner, ns, pods) ∧ pods = listed.store.listPods ns ∧
      HighestNumber pods (d.seed pods).2 ∧
      (start = .resume id (.seeding owner ns) (.ok pods) →
        (returned.operator.next start).progress? id =
          some (.ended (.seeded (.ok (d.seed pods).2)))) ∧
      (∀ name, Operator.given? owner (t.operator, m) = some name →
        (∀ pod ∈ pods, pod.metadata.name ≠ name) ∧
          ∀ moment ∈ later ++ (returned, start) :: before,
            Operator.given? owner (moment.1.operator, moment.2) ≠ some name ∧
              Operator.adopted? owner moment.2 ≠ some name) ∧
      ∀ i stamp pod, returned.operator.naming? owner i = none →
        t.clash? stamp owner ns i = some pod →
        ∃ moment ∈ later ++ (returned, start) :: between, ∃ role,
          moment.2.creator? pod = some role ∧ role.reconciles owner = false := by
  have hball : ∀ moment ∈ operatorHistory ((t, m) :: (later ++ (returned, start) :: before)),
      (moment.1.counter owner).toNat < longBound - 1 := List.forall_mem_map.mpr hb
  have hbsince : ∀ moment ∈ operatorHistory ((t, m) :: later),
      (moment.1.counter owner).toNat < longBound - 1 := by
    refine List.forall_mem_map.mpr fun moment hm => hb moment ?_
    rw [← List.cons_append]
    exact List.mem_append_left _ hm
  have hop := operator_execution h
  obtain ⟨mid, hbefore, hseed, hlater⟩ := h.split
  have hlaterop : Execution Operator.Step mid.operator (operatorHistory later) t.operator :=
    hlater.map Site.operator fun hs => hs.1
  have hpassed := hseed.1.seeded hd hstart
  obtain ⟨between, listed, look, earlier, after, rfl, hlook, hpods, hkeyed, hstore, hbetween⟩ :=
    seeding_listing hbefore hseed hstart
  refine ⟨between, listed, look, earlier, rfl, hlook, hpods, highestNumber pods, ?_, ?_, ?_⟩
  · rintro rfl
    have hended := Operator.progress?_resume_self hseed.1.1
    simp only [Work.resume, hd] at hended
    exact hended
  · intro name hg
    refine ⟨Operator.listed_fresh hlaterop hs.1 hbsince hpassed hg, fun moment hm => ?_⟩
    exact Operator.given_fresh hop hs.1 hball hg _ (List.mem_map_of_mem hm)
  · intro i stamp pod hnone hclash
    obtain ⟨told, key, run, claim, name, new, hw, rfl, rfl, hexists⟩ := clash?_eq_some hclash
    have hfresh := Operator.named_fresh hlaterop (List.forall_mem_cons.mp hbsince).2 hpassed
      (hseed.1.unnamed hstart hnone) (Operator.naming?_of_waiting hw)
    have hgone : listed.store.pods.contains new.key = false := by
      refine Bool.eq_false_iff.mpr fun hc => ?_
      obtain ⟨p, hp, hname⟩ := hkeyed.listed hc
      rw [creating_key h hw] at hp hname
      rw [← hpods] at hp
      exact hfresh p hp hname
    have hwrap := Operator.no_wraps hop (List.forall_mem_cons.mp hball).2
    have hsince : Execution Step after (later ++ (returned, start) :: between) t :=
      (hbetween.next hseed).trans hlater
    rw [← List.cons_append, ← List.append_assoc] at h hwrap
    exact created_by_other h hsince hwrap hw (by rw [hstore, hgone]) hexists

def stranger (id : Nat) (name : String) : List Act :=
  .call (.createPod { metadata := { ns := "ops", name } }) :: Sample.exchanges id 1

/-- The controller lists three pods of others, two of which have a number. -/
def crowded : List (Site × Move) × Site :=
  play (.install Sample.settings {} :: stranger 0 "cnf-job-run-007" ++
    stranger 1 "cnf-job-run-+3" ++ stranger 2 "database" ++ [.seed 0 "ops", .serve 3 .epoch])

/-- Then it adopts the pod with number 9, and gives out the next name, under which somebody else is
quicker to create a pod. A third run is about to get its name. -/
def outpaced : List (Site × Move) × Site :=
  (crowded.2.act (.resume 3)).2.playOn (stranger 4 "cnf-job-run-9" ++
    [.outside (.applyRun .epoch { Sample.run "first" with
        status := { phase := .running, podName := some "cnf-job-run-9" } }),
      .reconcile 0 Sample.key] ++ Sample.exchanges 5 2 ++
    [.outside (.applyRun .epoch Sample.otherRun), .reconcile 0 Sample.otherKey] ++
    Sample.exchanges 7 3 ++ stranger 8 "cnf-job-run-10" ++
    [.outside (.applyRun .epoch { Sample.otherRun with
        metadata := { ns := "ops", name := "run-3", uid := "third" } }),
      .reconcile 0 ⟨"ops", "run-3"⟩] ++ Sample.exchanges 9 2 ++ [.serve 9 .epoch])

/-- The counter starts at 7. The third run gets the name with number 11, and the pod with number 10
that the second run does not get is somebody else's. -/
theorem fresh_names_outpaced :
    let start := (crowded.2.act (.resume 3)).1
    let pods := crowded.2.store.listPods "ops"
    let history := outpaced.1 ++ (crowded.2, start) :: crowded.1
    let t := outpaced.2
    let m := (t.act (.resume 9)).1
    Execution Step {} history t ∧ t.Step m (t.act (.resume 9)).2 ∧
      start.taken? 3 Work.seeding? = some (0, "ops", pods) ∧
      (∀ moment ∈ (t, m) :: history, (moment.1.operator.counter 0).toNat < longBound - 1) ∧
      HighestNumber pods 7 ∧ Operator.given? 0 (t.operator, m) = some "cnf-job-run-11" ∧
      (∀ moment ∈ history,
        Operator.given? 0 (moment.1.operator, moment.2) ≠ some "cnf-job-run-11" ∧
          Operator.adopted? 0 moment.2 ≠ some "cnf-job-run-11") ∧
      t.clash? .epoch 0 "ops" 7 = some ⟨"ops", "cnf-job-run-10"⟩ ∧
      ∃ moment ∈ history, ∃ role, moment.2.creator? ⟨"ops", "cnf-job-run-10"⟩ = some role ∧
        role.reconciles 0 = false := by
  intro start pods history t m
  have h : Execution Step {} history t :=
    (Execution.next (play_execution _) (act_step crowded.2 (.resume 3))).trans
      (playOn_execution _ _)
  have hs : t.Step m (t.act (.resume 9)).2 := act_step t (.resume 9)
  have hstart : start.taken? 3 Work.seeding? = some (0, "ops", pods) := by decide +kernel
  have hd : (crowded.2.operator.controllers[0]?).isSome = true := by decide +kernel
  have hb : ∀ moment ∈ (t, m) :: history, (moment.1.operator.counter 0).toNat < longBound - 1 := by
    decide +kernel
  have hg : Operator.given? 0 (t.operator, m) = some "cnf-job-run-11" := by decide +kernel
  have hunnamed : crowded.2.operator.naming? 0 7 = none := by decide +kernel
  have hclash : t.clash? .epoch 0 "ops" 7 = some ⟨"ops", "cnf-job-run-10"⟩ := by decide +kernel
  have hseven : highestPodNumber pods = 7 := by decide +kernel
  obtain ⟨d, hd⟩ := Option.isSome_iff_exists.mp hd
  obtain ⟨between, listed, look, earlier, hbefore, _, _, hhighest, _, hfresh, hother⟩ :=
    fresh_names h hs hstart hd hb
  have hnumber : (d.seed pods).2 = 7 := hseven
  rw [hnumber] at hhighest
  obtain ⟨moment, hm, role, hrole⟩ := hother 7 .epoch _ hunnamed hclash
  have hwhole : moment ∈ history := by
    show moment ∈ outpaced.1 ++ (crowded.2, start) :: crowded.1
    rw [hbefore, ← List.cons_append, ← List.append_assoc]
    exact List.mem_append_left _ hm
  exact ⟨h, hs, hstart, hb, hhighest, hg, (hfresh _ hg).2, hclash, moment, hwhole, role, hrole⟩

end Site

end CertRuns
