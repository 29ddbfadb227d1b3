import CertRuns.Proofs.Operator.Steps

/-!
# Roles of tasks

* `Role` : what a task is there for; a task keeps its role (`role_eq_origin`);
* `Operator.parent?` : the task that started a task;
* `monitor_origin` : a monitor is started at the beginning of a wait;
* `idle`, `retired` : no reconciliation of a controller is under way; a controller has come to rest.
-/

namespace CertRuns

open Rehearsal (Work)

/-- What a task is there for. -/
inductive Role where
  /-- To reconcile a run under a controller. -/
  | reconciler (owner : Nat) (key : ObjectKey)
  /-- To follow a run's pod under a controller. -/
  | monitor (owner : Nat) (key : ObjectKey)
  | other
  deriving DecidableEq

def Rehearsal.Work.role : Work → Role
  | .reconcile owner _ r => .reconciler owner r.key
  | .monitor owner m => .monitor owner m.key
  | _ => .other

def Role.owner? : Role → Option Nat
  | .reconciler owner _ => some owner
  | .monitor owner _ => some owner
  | .other => none

/-- Is it the role to reconcile a run under a controller? -/
def Role.reconciles (owner : Nat) : Role → Bool
  | .reconciler o _ => o == owner
  | _ => false

/-- The role of a task that is under way. -/
def Thread.role? (t : Thread) : Option Role :=
  match t.progress with
  | .waiting work _ => some work.role
  | .ended _ => none

namespace Operator

variable {c c' : Operator} {m : Move} {history : List (Operator × Move)}

/-- No reconciliation of a controller is under way. -/
def idle (c : Operator) (owner : Nat) : Bool :=
  c.threads.all fun t => t.role?.all fun role => !role.reconciles owner

/-- A controller was shut down and none of its tasks is under way any more. -/
def retired (c : Operator) (owner : Nat) : Bool :=
  c.controllers[owner]?.any (·.stopped) &&
    c.threads.all fun t => t.role?.all fun role => role.owner? != some owner

/-- A reconciliation of an idle controller does not wait. -/
theorem idle_waiting {owner : Nat} (h : c.idle owner = true) {id : Nat} {told : Option Nat}
    {r : Reconcile} {answer : Option r.wait.Event}
    (hw : c.progress? id = some (.waiting (.reconcile owner told r) answer)) : False := by
  obtain ⟨t, hp, hall⟩ := all_progress h hw
  rw [Thread.role?, hp] at hall
  simp [Role.reconciles, Work.role] at hall

theorem Goes.role {cs : List Controller} {now : Instant} {work work' : Work}
    {event : work.wait.Event} (h : Goes cs now work event work') : work'.role = work.role := by
  cases h with
  | reconcile hd hr => rw [Work.role, Work.role, hr.key_going]
  | monitor hd hr => cases hr <;> rfl
  | _ => rfl

theorem role_eq_origin (h : Execution Step {} history c) {id : Nat} {t : Thread}
    (ht : c.threads[id]? = some t) {work : Work} {answer : Option work.wait.Event}
    (hw : t.progress = .waiting work answer) : work.role = t.origin.role := by
  induction h generalizing id t work with
  | start => cases ht
  | @next history s s' m before last ih =>
    cases last.comes ht with
    | kept _ h => exact ih h hw
    | received hs hp _ h =>
      subst h
      cases hw
      exact ih hs hp
    | @resumed r old event hs hp h =>
      subst h
      generalize hn : (old.resume _ _ event).next = next at hw
      cases next with
      | ended result => cases hw
      | going new =>
        cases hw
        exact (goes hn).role.trans (ih hs hp)
    | started _ hm h =>
      subst h
      cases hw
      rfl
    | spawned _ hs hp hn h =>
      subst h
      cases hw
      rfl

/-- The task that started a task. -/
def parent? (c : Operator) (id : Nat) : Option Nat := (c.threads[id]?).bind (·.parent)

/-- The role that a task was started in. -/
def role? (c : Operator) (id : Nat) : Option Role := (c.threads[id]?).map (·.origin.role)

theorem role?_waiting (h : Execution Step {} history c) {id : Nat} {work : Work}
    {answer : Option work.wait.Event} (hw : c.progress? id = some (.waiting work answer)) :
    c.role? id = some work.role := by
  obtain ⟨t, ht, hw⟩ := progress?_eq_some.mp hw
  rw [role?, ht, role_eq_origin h ht hw]
  rfl

theorem Step.role? (h : c.Step m c') {id : Nat} {role : Role} (hr : c.role? id = some role) :
    c'.role? id = some role := by
  obtain ⟨t, ht, hrole⟩ := Option.map_eq_some_iff.mp hr
  obtain ⟨t', ht', ho, _⟩ := h.origin ht
  rw [Operator.role?, ht', Option.map_some, ho, hrole]

theorem role?_later (h : Execution Step c history c') {id : Nat} {role : Role}
    (hr : c.role? id = some role) : c'.role? id = some role := by
  induction h with
  | start => exact hr
  | next before last ih => exact last.role? ih

/-- What a task that is there already is there for. -/
theorem role?_earlier (h : Execution Step c history c') {id : Nat} {role : Role} {p : Progress}
    (hp : c.progress? id = some p) (hr : c'.role? id = some role) : c.role? id = some role := by
  obtain ⟨t, ht, _⟩ := progress?_eq_some.mp hp
  have hbefore : c.role? id = some t.origin.role := by rw [role?, ht, Option.map_some]
  rw [← hr, role?_later h hbefore, hbefore]

theorem monitor_origin (h : Execution Step {} history c) {id : Nat} {t : Thread}
    (ht : c.threads[id]? = some t) {owner : Nat} {key : ObjectKey}
    (hr : t.origin.role = .monitor owner key) :
    ∃ w, t.origin = .monitor owner ⟨key, .waiting w⟩ := by
  induction h generalizing id t with
  | start => cases ht
  | next before last ih =>
    cases last.begins ht with
    | before hs ho =>
      rw [ho] at hr ⊢
      exact ih hs hr
    | outside hw =>
      generalize t.origin = work at hw hr
      cases hw <;> cases hr
    | spawned _ _ hn =>
      generalize t.origin = work at hn hr
      cases hn with
      | event => cases hr
      | monitor hd hr' =>
        cases hr
        cases hr' <;> exact ⟨_, rfl⟩

end Operator

end CertRuns
