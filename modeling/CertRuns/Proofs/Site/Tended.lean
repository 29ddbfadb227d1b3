import CertRuns.Proofs.Operator.OnePod
import CertRuns.Proofs.Site.Keys

/-!
# One task at a time tends a run

A task tends a run while it is getting a pod for it, and then the monitor that it starts does so.
The entry of the run keeps other reconciliations away from the claim on.

* `Work.tends` : a task tends a run; `Operator.tending` : how many do;
* `Step.tending` : a move lets another task tend a run only if it makes an entry for it;
* `Tended` : at most one task tends a run, and none if the run has no entry; kept by every move in
  which nobody sees the run missing (`Tended.step`);
* `Tended.tracked`, `Tended.unique` : a run that a task tends has an entry, and no other task tends
  it.
-/

namespace CertRuns

open Rehearsal (Work)

/-- Does the task tend the run: is it getting a pod for it, or does it follow its pod? -/
def Rehearsal.Work.tends (owner : Nat) (key : ObjectKey) : Work → Bool
  | .reconcile o _ r => o == owner && r.key == key && r.stage.busy
  | .monitor o m => o == owner && m.key == key
  | _ => false

def Rehearsal.Next.tends (owner : Nat) (key : ObjectKey) : Rehearsal.Next → Bool
  | .going work => work.tends owner key
  | .ended _ => false

def Thread.tends (owner : Nat) (key : ObjectKey) (t : Thread) : Bool :=
  match t.progress with
  | .waiting work _ => work.tends owner key
  | .ended _ => false

theorem Thread.tends_of_progress {t : Thread} {work : Work} {answer : Option work.wait.Event}
    (h : t.progress = .waiting work answer) (owner : Nat) (key : ObjectKey) :
    t.tends owner key = work.tends owner key := by
  rw [tends, h]

theorem Thread.tends_proceed (t : Thread) (next : Rehearsal.Next) (owner : Nat) (key : ObjectKey) :
    (t.proceed next).tends owner key = next.tends owner key := by
  cases next <;> rfl

namespace Operator

variable {c c' : Operator} {m : Move} {owner o id : Nat} {key k : ObjectKey}

/-- How many tasks tend the run. -/
def tending (c : Operator) (owner : Nat) (key : ObjectKey) : Nat :=
  c.threads.countP (·.tends owner key)

theorem countP_pos_of_getElem? {l : List Thread} {p : Thread → Bool} {x : Thread}
    {i : Nat} (hx : l[i]? = some x) (hp : p x = true) : 0 < l.countP p :=
  List.countP_pos_iff.mpr ⟨x, List.mem_of_getElem? hx, hp⟩

theorem tending_pos {work : Work} {answer : Option work.wait.Event}
    (hw : c.progress? id = some (.waiting work answer)) (htends : work.tends owner key = true) :
    0 < c.tending owner key := by
  obtain ⟨x, hx, hp⟩ := progress?_eq_some.mp hw
  exact countP_pos_of_getElem? hx (by rw [Thread.tends_of_progress hp, htends])

/-! ## The steps of a reconciliation -/

/-- A reconciliation of the run that goes on: its monitor takes its place, and an entry is made for
one that has not tended the run before. -/
theorem reconcile_tends {d d' : Controller} {now : Instant} {told : Option Nat}
    {stage : Reconcile.Stage} {event : (Reconcile.mk key stage).wait.Event} {turn : Reconcile.Turn}
    (hr : Reconcile.Resumes d now key stage event d' turn)
    (hkeyed : (Work.reconcile owner told ⟨key, stage⟩).Keyed (some event))
    (hmiss : misses owner key (c, .resume id (.reconcile owner told ⟨key, stage⟩) event) = false) :
    ((turned owner told turn).tends owner key).toNat +
        (monitors owner turn).countP (·.tends owner key) +
        (d.tracker.runs.get? key).isSome.toNat ≤
      stage.busy.toNat + (d'.tracker.runs.get? key).isSome.toNat := by
  have hcommitted (claim : RunClaim) (podName : String) (token : Token) :
      (d.tracker.runs.get? key).isSome.toNat ≤
        ((d.tracker.committed claim podName token).runs.get? key).isSome.toNat := by
    rw [Tracker.get?_committed]
    split
    · exact Bool.toNat_le _
    · exact Nat.le_refl _
  unfold Rehearsal.Next.tends
  cases hr with
  -- the entry would go without the task, but only where the run is seen missing
  | absent he | dropped he | cleaning he => simp [misses, he] at hmiss
  | unread | refused | deleted => simp [turned, monitors, Reconcile.Stage.busy]
  | inspect hentry | announce hentry =>
    simp [turned, monitors, Work.tends, Reconcile.Stage.busy, hentry, Tracker.get?_claimed]
  | @adopt run =>
    have hrun : run.key = key := hkeyed
    simpa [turned, monitors, Work.tends, Reconcile.Stage.busy, Monitor.start, hrun] using
      hcommitted _ _ _
  | commit =>
    simpa [turned, monitors, Work.tends, Reconcile.Stage.busy] using hcommitted _ _ _
  | @recorded run =>
    have hrun : run.key = key := hkeyed.1
    simp [turned, monitors, Work.tends, Reconcile.Stage.busy, Monitor.start, hrun]
  | adoptLate | commitLate | redeploy | announcing | deploy | unbuilt | rejected | excusing
  | recording =>
    simp [turned, monitors, Work.tends, Reconcile.Stage.busy]
  | uninspected | unannounced | excused =>
    have := Bool.toNat_le (d.tracker.runs.get? key).isSome
    simp [turned, monitors, Reconcile.Stage.busy]
    omega

/-- A reconciliation of another run, or under another controller, has nothing to do with the run. -/
theorem reconcile_not_tends {d d' : Controller} {now : Instant} (told : Option Nat)
    {stage : Reconcile.Stage} {event : (Reconcile.mk k stage).wait.Event} {turn : Reconcile.Turn}
    (hr : Reconcile.Resumes d now k stage event d' turn)
    (hkeyed : (Work.reconcile o told ⟨k, stage⟩).Keyed (some event))
    (hk : ¬ (o = owner ∧ k = key)) :
    (turned o told turn).tends owner key = false ∧
      (monitors o turn).countP (·.tends owner key) = 0 := by
  have hforeign : (o == owner && k == key) = false := by simpa using hk
  unfold Rehearsal.Next.tends
  cases hr with
  | @adopt run =>
    have hrun : run.key = k := hkeyed
    simp [turned, monitors, Work.tends, Monitor.start, hrun, hforeign]
  | @recorded run =>
    have hrun : run.key = k := hkeyed.1
    simp [turned, monitors, Work.tends, Monitor.start, hrun, hforeign]
  | _ => simp [turned, monitors, Work.tends, hforeign]

theorem Step.tracked?_foreign {told : Option Nat} {stage : Reconcile.Stage}
    {event : (Reconcile.mk k stage).wait.Event}
    (h : c.Step (.resume id (.reconcile o told ⟨k, stage⟩) event) c')
    (hown : OwnClaim (.reconcile o told ⟨k, stage⟩)) (hk : ¬ (o = owner ∧ k = key)) :
    c'.tracked? owner key = c.tracked? owner key := by
  cases h.handles owner with
  | idle ht => rw [tracked?, ht, tracked?]
  | reconcile hd hr ht =>
    rw [tracked?, ht, hr.get?_other hown (fun h => hk ⟨rfl, h.symm⟩), tracked?, tracker_eq hd]

/-- A reconciliation that goes on, whichever its run. -/
theorem Step.tends_reconcile {told : Option Nat} {stage : Reconcile.Stage}
    {event : (Reconcile.mk k stage).wait.Event}
    (h : c.Step (.resume id (.reconcile o told ⟨k, stage⟩) event) c')
    (hkeyed : (Work.reconcile o told ⟨k, stage⟩).Keyed (some event))
    (hown : OwnClaim (.reconcile o told ⟨k, stage⟩))
    (hmiss : misses owner key (c, .resume id (.reconcile o told ⟨k, stage⟩) event) = false) :
    let step := (Work.reconcile o told ⟨k, stage⟩).resume c.controllers c.clock event
    (step.next.tends owner key).toNat + step.started.countP (·.tends owner key) +
        (c.tracked? owner key).isSome.toNat ≤
      ((Work.reconcile o told ⟨k, stage⟩).tends owner key).toNat +
        (c'.tracked? owner key).isSome.toNat := by
  have hr := reconciles c.controllers c.clock o told k stage event
  have hc := h.controllers
  simp only
  generalize (Work.reconcile o told ⟨k, stage⟩).resume c.controllers c.clock event = step at hr hc
  cases hr with
  | orphan hd =>
    rw [tracked?, tracked?, (Alike.of_eq hc owner).1]
    simp [Rehearsal.Next.tends]
  | @turns d d' e turn hd hr ht =>
    obtain ⟨htracker, _⟩ := set_controller owner hd hc
    by_cases hk : o = owner ∧ k = key
    · obtain ⟨rfl, rfl⟩ := hk
      rw [if_pos rfl, ht] at htracker
      rw [tracked?, tracked?, htracker, tracker_eq hd]
      simpa [Work.tends] using reconcile_tends hr hkeyed hmiss
    · have hentry := h.tracked?_foreign hown hk
      obtain ⟨hnext, hstarted⟩ := reconcile_not_tends told hr hkeyed hk
      simp only [hnext, hstarted, hentry]
      simp

/-! ## Moves -/

theorem MayStart.not_tends {work : Work} (h : c.MayStart work) : work.tends owner key = false := by
  cases h with
  | reconcile => simp [Work.tends, Reconcile.start, Reconcile.Stage.busy]
  | _ => rfl

/-- A task that is no reconciliation stays what it is when it goes on, and starts nothing that tends
a run. -/
theorem tends_other (owner : Nat) (key : ObjectKey) (cs : List Controller) (now : Instant)
    {work : Work} (event : work.wait.Event) (hw : ∀ o told r, work ≠ .reconcile o told r) :
    ((work.resume cs now event).next.tends owner key).toNat ≤ (work.tends owner key).toNat ∧
      (work.resume cs now event).started.countP (·.tends owner key) = 0 := by
  constructor
  · unfold Rehearsal.Next.tends
    split
    · rename_i new hn
      cases goes hn with
      | reconcile => exact absurd rfl (hw _ _ _)
      | monitor hd hr => cases hr <;> exact Nat.le_refl _
      | _ => exact Nat.le_refl _
    · exact Nat.zero_le _
  · rw [List.countP_eq_zero]
    intro new hn
    cases spawns hn with
    | event => simp [Work.tends, Reconcile.start, Reconcile.Stage.busy]
    | monitor => exact absurd rfl (hw _ _ _)

theorem Step.tending (h : c.Step m c')
    (hkeyed : ∀ id work answer, c.progress? id = some (.waiting work answer) → work.Keyed answer)
    (hown : OwnClaims c) (hmiss : misses owner key (c, m) = false) :
    c'.tending owner key + (c.tracked? owner key).isSome.toNat ≤
      c.tending owner key + (c'.tracked? owner key).isSome.toNat := by
  have hentry := h.isSome_tracked? owner key
  have hstep := h
  obtain ⟨he, rfl⟩ := h
  unfold tending
  cases m with
  | pass | install | shutDown | raise | outside =>
    rw [hentry (fun _ _ _ _ _ h => by cases h)]
    exact Nat.le_refl _
  | start work =>
    rw [hentry (fun _ _ _ _ _ h => by cases h)]
    have hw : (Thread.begin none work).tends owner key = false := MayStart.not_tends he
    simp [next, hw]
  | receive id work event =>
    rw [hentry (fun _ _ _ _ _ h => by cases h)]
    obtain ⟨t, ht, hw⟩ := progress?_eq_some.mp he.1
    have hcount := countP_receive ht event (·.tends owner key)
    have hsame : (t.receive work event).tends owner key = t.tends owner key := by
      rw [Thread.tends_of_progress hw]
      rfl
    rw [hsame] at hcount
    omega
  | resume id work event =>
    obtain ⟨t, ht, hw⟩ := progress?_eq_some.mp he
    have hcount := countP_resume ht event (·.tends owner key) rfl
    have hstarted : (work.resume c.controllers c.clock event).started.countP
        (fun new => (Thread.begin (some id) new).tends owner key) =
        (work.resume c.controllers c.clock event).started.countP (·.tends owner key) := rfl
    rw [Thread.tends_of_progress hw, Thread.tends_proceed, hstarted] at hcount
    cases work with
    | reconcile o told r =>
      obtain ⟨k, stage⟩ := r
      have hr := hstep.tends_reconcile (hkeyed _ _ _ he) (hown _ _ _ he) hmiss
      simp only at hr
      omega
    | _ =>
      rw [hentry (fun _ _ _ _ _ h => by cases h)]
      obtain ⟨hnext, hnone⟩ :=
        tends_other owner key c.controllers c.clock event (fun _ _ _ h => by cases h)
      omega

end Operator

namespace Site

variable {t t' : Site} {m : Move} {history : List (Site × Move)} {owner i j : Nat} {key : ObjectKey}

/-- At most one task tends the run, and none if the run has no entry. -/
def Tended (owner : Nat) (key : ObjectKey) (t : Site) : Prop :=
  t.operator.tending owner key ≤ (t.operator.tracked? owner key).isSome.toNat

theorem Tended.step (ht : Tended owner key t) (h : Execution Step {} history t) (hs : t.Step m t')
    (hmiss : Operator.misses owner key (t.operator, m) = false) : Tended owner key t' := by
  have hstep := hs.1.tending (fun _ _ _ hw => keyed h hw) (Operator.ownClaims (operator_execution h))
    hmiss
  unfold Tended at ht ⊢
  omega

theorem eq_of_countP_le_one {l : List Thread} {p : Thread → Bool} (h : l.countP p ≤ 1)
    {x y : Thread} (hx : l[i]? = some x) (hy : l[j]? = some y) (hpx : p x = true)
    (hpy : p y = true) : i = j := by
  induction l generalizing i j with
  | nil => cases hx
  | cons z l ih =>
    rw [List.countP_cons] at h
    cases i with
    | zero =>
      cases j with
      | zero => rfl
      | succ j =>
        cases hx
        have := Operator.countP_pos_of_getElem? (i := j) hy hpy
        rw [if_pos hpx] at h
        omega
    | succ i =>
      cases j with
      | zero =>
        cases hy
        have := Operator.countP_pos_of_getElem? (i := i) hx hpx
        rw [if_pos hpy] at h
        omega
      | succ j => rw [ih (by omega) hx hy]

theorem Tended.tracked (ht : Tended owner key t) {work : Work} {answer : Option work.wait.Event}
    (hw : t.operator.progress? i = some (.waiting work answer))
    (htends : work.tends owner key = true) : (t.operator.tracked? owner key).isSome = true := by
  have hpos := Operator.tending_pos hw htends
  have hle := Bool.toNat_le (t.operator.tracked? owner key).isSome
  unfold Tended at ht
  exact Bool.toNat_eq_one.mp (by omega)

theorem Tended.unique (ht : Tended owner key t) {work work' : Work}
    {answer : Option work.wait.Event} {answer' : Option work'.wait.Event}
    (hi : t.operator.progress? i = some (.waiting work answer))
    (hj : t.operator.progress? j = some (.waiting work' answer'))
    (htends : work.tends owner key = true) (htends' : work'.tends owner key = true) : i = j := by
  obtain ⟨x, hx, hpx⟩ := Operator.progress?_eq_some.mp hi
  obtain ⟨y, hy, hpy⟩ := Operator.progress?_eq_some.mp hj
  refine eq_of_countP_le_one (p := (·.tends owner key))
    (Nat.le_trans ht (Bool.toNat_le _)) hx hy ?_ ?_
  · exact (Thread.tends_of_progress hpx _ _).trans htends
  · exact (Thread.tends_of_progress hpy _ _).trans htends'

end Site

end CertRuns
