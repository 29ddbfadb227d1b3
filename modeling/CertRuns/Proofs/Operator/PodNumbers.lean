import CertRuns.Proofs.Job.Names
import CertRuns.Proofs.Operator.Trackers

/-!
# Names of pods are given out once

A controller numbers the pods that it creates. Its counter goes up when it names a pod, and up again
when it learns of pods of others, so it names no two pods alike until the counter wraps around.

* `counter`, `wraps` : the counter of a controller; it wraps around in a move;
* `made?` : the name of the pod that a controller creates in a move;
* `Numbered` : the names that are given out are numbered up to the counter, and none is given out
  twice; kept by every move that wraps no counter (`Numbered.step`);
* `made_once` : a controller whose counter has not wrapped around has created no two pods of one name.
-/

namespace CertRuns.Operator

open Rehearsal (Work)

variable {c c' : Operator} {m : Move} {owner i : Nat} {history : List (Operator × Move)}

/-- The highest number in a pod name that a controller knows of. -/
def counter (c : Operator) (owner : Nat) : UInt64 :=
  (c.controllers[owner]?.map (·.podCounter)).getD 0

/-- The counter of a controller wraps around in a move. -/
def wraps (owner : Nat) (moment : Operator × Move) : Bool :=
  (moment.1.next moment.2).counter owner < moment.1.counter owner

def made? (owner : Nat) : Move → Option String
  | .receive _ (.reconcile o _ ⟨_, .creating _ _ podName _⟩) (.ok _) =>
    if o = owner then some podName else none
  | _ => none

/-- The name under which a reconciliation of a controller creates a pod. -/
def naming? (c : Operator) (owner i : Nat) : Option String :=
  match c.progress? i with
  | some (.waiting (.reconcile o _ ⟨_, .creating _ _ podName _⟩) _) =>
    if o = owner then some podName else none
  | _ => none

theorem naming?_eq_some {name : String} (h : c.naming? owner i = some name) :
    ∃ told key run claim pod answer, c.progress? i = some (.waiting
      (.reconcile owner told ⟨key, .creating run claim name pod⟩) answer) := by
  unfold naming? at h
  split at h
  · rename_i hw
    split at h
    · rename_i ho
      subst ho
      cases h
      exact ⟨_, _, _, _, _, _, hw⟩
    · cases h
  · cases h

theorem naming?_of_waiting {i : Nat} {told : Option Nat} {key : ObjectKey} {run : Run}
    {claim : RunClaim} {name : String} {pod : Pod}
    {answer : Option (Reconcile.mk key (.creating run claim name pod)).wait.Event}
    (h : c.progress? i = some (.waiting
      (.reconcile owner told ⟨key, .creating run claim name pod⟩) answer)) :
    c.naming? owner i = some name := by
  rw [naming?, h]
  exact if_pos rfl

theorem counter_eq {d : Controller} (h : c.controllers[owner]? = some d) :
    c.counter owner = d.podCounter := by
  rw [counter, h, Option.map_some, Option.getD_some]

/-- Where the name comes from under which the task with number `i` creates a pod. -/
inductive Names (c : Operator) (owner i : Nat) (name : String) (c' : Operator) : Move → Prop
  /-- It had it before. -/
  | kept {m : Move} (hm : m.subject? ≠ some i) (h : c.naming? owner i = some name) :
      Names c owner i name c' m
  /-- It had it before, and is told whether the pod is created. -/
  | answered {work : Work} {event : work.wait.Event} (h : c.naming? owner i = some name) :
      Names c owner i name c' (.receive i work event)
  /-- It is given the next one. -/
  | given {work : Work} {event : work.wait.Event} (hc : c'.counter owner = c.counter owner + 1)
      (hn : name = Job.podName (c.counter owner + 1)) : Names c owner i name c' (.resume i work event)

theorem Step.names (h : c.Step m c') {i : Nat} {name : String}
    (hn : c'.naming? owner i = some name) : Names c owner i name c' m := by
  obtain ⟨told, key, run, claim, pod, answer, hw⟩ := naming?_eq_some hn
  cases h.waits hw with
  | kept hm hbefore => exact .kept hm (naming?_of_waiting hbefore)
  | received hbefore => exact .answered (naming?_of_waiting hbefore)
  | resumed hbefore hg =>
    cases hg with
    | @reconcile _ _ _ _ _ d d' d'' _ hd hr hcs _ hp =>
      cases hr with
      | deploy =>
        refine .given ?_ (by rw [counter_eq hd])
        have hlt : owner < c.controllers.length := (List.getElem?_eq_some_iff.mp hd).1
        have hd' : c'.controllers[owner]? = some d'' := by
          rw [h.controllers, hcs, List.getElem?_set_self hlt]
        rw [counter_eq hd, counter_eq hd', hp]
        rfl
  | started _ hm => cases hm
  | spawned _ _ hs => cases hs

theorem made?_eq_some {name : String} (h : made? owner m = some name) :
    ∃ i told key run claim pod stored, m = .receive i
      (.reconcile owner told ⟨key, .creating run claim name pod⟩) (.ok stored) := by
  unfold made? at h
  split at h
  · split at h
    · rename_i ho
      subst ho
      cases h
      exact ⟨_, _, _, _, _, _, _, rfl⟩
    · cases h
  · cases h

theorem not_wraps (h : c.Step m c') (hw : wraps owner (c, m) = false) :
    c.counter owner ≤ c'.counter owner := by
  rw [h.2]
  exact UInt64.not_lt.mp (of_decide_eq_false hw)

/-- The names that a controller gives out are numbered up to its counter, none is given out twice, and
no pod has been created under one that is still to be used. -/
structure Numbered (c : Operator) (owner : Nat) (history : List (Operator × Move)) : Prop where
  naming_le {i : Nat} {name : String} (h : c.naming? owner i = some name) :
    ∃ n ≤ c.counter owner, name = Job.podName n
  unique {i j : Nat} {name : String} (hi : c.naming? owner i = some name)
    (hj : c.naming? owner j = some name) : i = j
  made_le {moment : Operator × Move} {name : String} (hm : moment ∈ history)
    (h : made? owner moment.2 = some name) : ∃ n ≤ c.counter owner, name = Job.podName n
  fresh {i : Nat} {told : Option Nat} {key : ObjectKey} {run : Run} {claim : RunClaim}
    {name : String} {pod : Pod} (hw : c.progress? i = some (.waiting
      (.reconcile owner told ⟨key, .creating run claim name pod⟩) none))
    {moment : Operator × Move} (hm : moment ∈ history) : made? owner moment.2 ≠ some name

theorem podName_next_ne {counter next : UInt64} (hle : counter ≤ next) (hnext : next = counter + 1)
    {n : UInt64} (hn : n ≤ counter) : Job.podName (counter + 1) ≠ Job.podName n := by
  intro h
  have hn' := Job.podName_injective h
  subst hn'
  rw [← hnext] at hn
  have hsame : next = counter := UInt64.le_antisymm hn hle
  rw [hnext] at hsame
  have := congrArg UInt64.toNat hsame
  rw [UInt64.toNat_add] at this
  have := counter.toNat_lt
  have : (1 : UInt64).toNat = 1 := rfl
  omega

/-- A name that is given out now is none that a task has had before. -/
theorem Numbered.not_named (hs : Numbered c owner history) (h : c.Step m c')
    (hwrap : wraps owner (c, m) = false) (hc : c'.counter owner = c.counter owner + 1) {name : String}
    (hn : name = Job.podName (c.counter owner + 1)) : c.naming? owner i ≠ some name := by
  intro hi
  obtain ⟨n, hle, hname⟩ := hs.naming_le hi
  exact podName_next_ne (not_wraps h hwrap) hc hle (hn.symm.trans hname)

theorem Numbered.unique_next (hs : Numbered c owner history) (h : c.Step m c')
    (hwrap : wraps owner (c, m) = false) {j : Nat} {name : String}
    (hi : c'.naming? owner i = some name) (hj : c'.naming? owner j = some name) : i = j := by
  cases h.names hi with
  | kept _ hi =>
    cases h.names hj with
    | kept _ hj | answered hj => exact hs.unique hi hj
    | given hc hn => exact absurd hi (hs.not_named h hwrap hc hn)
  | answered hi =>
    cases h.names hj with
    | kept _ hj | answered hj => exact hs.unique hi hj
  | given hc hn =>
    cases h.names hj with
    | kept _ hj => exact absurd hj (hs.not_named h hwrap hc hn)
    | given => rfl

theorem Numbered.fresh_next (hs : Numbered c owner history) (h : c.Step m c')
    (hwrap : wraps owner (c, m) = false) {told : Option Nat} {key : ObjectKey} {run : Run}
    {claim : RunClaim} {name : String} {pod : Pod} (hw : c'.progress? i = some (.waiting
      (.reconcile owner told ⟨key, .creating run claim name pod⟩) none))
    {moment : Operator × Move} (hm : moment ∈ (c, m) :: history) :
    made? owner moment.2 ≠ some name := by
  intro hmade
  cases h.waits hw with
  | kept hother hbefore =>
    rcases List.mem_cons.mp hm with rfl | hm
    · obtain ⟨j, told, key, run, claim, pod, stored, rfl⟩ := made?_eq_some hmade
      have hj := hs.unique (naming?_of_waiting h.1.1) (naming?_of_waiting hbefore)
      exact hother (congrArg some hj)
    · exact hs.fresh hbefore hm hmade
  | received _ _ he => cases he
  | resumed =>
    cases h.names (naming?_of_waiting hw) with
    | kept hother => exact hother rfl
    | given hc hn =>
      rcases List.mem_cons.mp hm with rfl | hm
      · cases hmade
      · obtain ⟨n, hle, hname⟩ := hs.made_le hm hmade
        exact podName_next_ne (not_wraps h hwrap) hc hle (hn.symm.trans hname)
  | started _ hstart => cases hstart
  | spawned _ _ hspawn => cases hspawn

theorem Numbered.step (hs : Numbered c owner history) (h : c.Step m c')
    (hwrap : wraps owner (c, m) = false) : Numbered c' owner ((c, m) :: history) := by
  have later {name : String} (hn : ∃ n ≤ c.counter owner, name = Job.podName n) :
      ∃ n ≤ c'.counter owner, name = Job.podName n := by
    obtain ⟨n, hn, hname⟩ := hn
    exact ⟨n, UInt64.le_trans hn (not_wraps h hwrap), hname⟩
  refine ⟨fun hi => ?_, hs.unique_next h hwrap, fun hm hmade => ?_, hs.fresh_next h hwrap⟩
  · cases h.names hi with
    | kept _ hi | answered hi => exact later (hs.naming_le hi)
    | given hc hn => exact ⟨_, UInt64.le_refl _, by rw [hc, hn]⟩
  · rcases List.mem_cons.mp hm with rfl | hm
    · obtain ⟨i, told, key, run, claim, pod, stored, rfl⟩ := made?_eq_some hmade
      exact later (hs.naming_le (naming?_of_waiting h.1.1))
    · exact later (hs.made_le hm hmade)

theorem numbered (h : Execution Step {} history c)
    (hwrap : ∀ moment ∈ history, wraps owner moment = false) : Numbered c owner history := by
  induction h with
  | start => exact ⟨nofun, nofun, nofun, nofun⟩
  | next before last ih =>
    exact (ih fun moment hm => hwrap moment (List.mem_cons_of_mem _ hm)).step last
      (hwrap _ List.mem_cons_self)

theorem made_once (h : Execution Step {} history c)
    (hwrap : ∀ moment ∈ history, wraps owner moment = false) :
    history.Pairwise fun x y => ∀ name, made? owner x.2 = some name → made? owner y.2 ≠ some name := by
  induction h with
  | start => exact .nil
  | next before last ih =>
    have hearlier := fun moment hm => hwrap moment (List.mem_cons_of_mem _ hm)
    refine .cons (fun moment hm name hmade => ?_) (ih hearlier)
    obtain ⟨i, told, key, run, claim, pod, stored, rfl⟩ := made?_eq_some hmade
    exact (numbered before hearlier).fresh last.1.1 hm

end CertRuns.Operator
