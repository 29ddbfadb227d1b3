import CertRuns.Proofs.Cluster.Calls
import CertRuns.Proofs.Operator.Steps

/-!
# An operator at a cluster in memory

* `Site` : an operator together with the store that answers its calls;
* `Store.Answers` : what a call does; it is served, or fails on its way and leaves no trace;
* `Outside.apply` : what users and tests do;
* `Site.Step` : a move of a site. Other operators are tasks of the same site;
* `operator_execution` : what happens at a site is an execution of its operator;
* `Step.rewrites`, `Step.changes` : how a move changes the store; `sound` : it stays sound;
* `waiting_induction` : invariants of single tasks.
-/

namespace CertRuns

open Rehearsal (Work)

/-- What a task is given at the end of its wait, and what becomes of the store. A call is served
or fails on its way, for whatever reason. -/
def Store.Answers (s s' : Store) : (wait : Wait) → wait.Event → Prop
  | .call r, reply => (∃ stamp, s.perform stamp r = (s', reply)) ∨ (∃ e, reply = .error e) ∧ s' = s
  | _, _ => s' = s

def Outside.apply (s : Store) : Outside → Store
  | .applyRun stamp run => (s.applyRun stamp run).1
  | .removeRun key => (s.removeRun key).1
  | .setPodStatus key status => (s.setPodStatus key status).1
  | .forceConflicts count => s.forceConflicts count
  | .rejectNextPod message => s.rejectNextPod message

theorem Store.Answers.rewrites {s s' : Store} {wait : Wait} {event : wait.Event}
    (h : s.Answers s' wait event) : s.Rewrites s' := by
  cases wait with
  | call r =>
    rcases h with ⟨stamp, h⟩ | ⟨_, rfl⟩
    · have := s.perform_rewrites stamp r
      rw [h] at this
      exact this
    · exact .kept (Nat.le_refl _) rfl
  | _ =>
    cases h
    exact .kept (Nat.le_refl _) rfl

/-- A run that a task is given is stored under the key that it asked for. -/
theorem Store.Answers.getRun_ok {s s' : Store} {key : ObjectKey} {run : Run}
    (h : s.Answers s' (.call (.getRun key)) (.ok run)) :
    s.runs.get? key = some run ∧ s' = s := by
  rcases h with ⟨stamp, h⟩ | ⟨⟨e, he⟩, _⟩
  · have hg : s.getRun key = .ok run := congrArg Prod.snd h
    refine ⟨?_, (congrArg Prod.fst h).symm⟩
    unfold Store.getRun at hg
    split at hg
    · rename_i hget
      cases hg
      exact hget
    · cases hg
  · cases he

theorem Outside.get?_applyRun (s : Store) (stamp : Stamp) (run : Run) (key : ObjectKey) :
    (apply s (.applyRun stamp run)).runs.get? key =
      if key = run.key then some (s.applyRun stamp run).2 else s.runs.get? key :=
  Table.get?_insert _ _ _ _

theorem Outside.get?_removeRun (s : Store) (k key : ObjectKey) :
    (apply s (.removeRun k)).runs.get? key = if key = k then none else s.runs.get? key :=
  Table.get?_erase _ _ _

theorem Outside.changes {s : Store} (hs : s.Sound) (change : Outside) :
    s.Changes (change.apply s) := by
  cases change with
  | applyRun stamp run => exact s.applyRun_changes stamp run
  | removeRun key => exact s.removeRun_changes key
  | setPodStatus key status => exact (s.setPodStatus_rewrites key status).changes hs
  | forceConflicts | rejectNextPod => exact .kept (Nat.le_refl _) rfl

/-- An operator and its cluster. -/
structure Site where
  operator : Operator := {}
  store : Store := {}

namespace Site

variable {t t' : Site} {m : Move} {history : List (Site × Move)}

def Stores (s s' : Store) : Move → Prop
  | .receive _ work event => s.Answers s' work.wait event
  | .outside change => s' = change.apply s
  | _ => s' = s

/-- A move of an operator and its cluster. -/
def Step (t : Site) (m : Move) (t' : Site) : Prop :=
  t.operator.Step m t'.operator ∧ Stores t.store t'.store m

/-- The operator's part of a history. -/
def operatorHistory (history : List (Site × Move)) : List (Operator × Move) :=
  history.map fun moment => (moment.1.operator, moment.2)

theorem operator_execution (h : Execution Step {} history t) :
    Execution Operator.Step {} (operatorHistory history) t.operator :=
  h.map Site.operator fun hs => hs.1

/-! ## The store -/

theorem Step.rewrites (h : t.Step m t') (hm : ∀ change, m ≠ .outside change) :
    t.store.Rewrites t'.store := by
  obtain ⟨_, hs⟩ := h
  cases m with
  | receive id work event => exact Store.Answers.rewrites hs
  | outside change => exact absurd rfl (hm change)
  | _ =>
    rw [show t'.store = t.store from hs]
    exact .kept (Nat.le_refl _) rfl

theorem Step.changes (h : t.Step m t') (hsound : t.store.Sound) : t.store.Changes t'.store := by
  by_cases hm : ∃ change, m = .outside change
  · obtain ⟨change, rfl⟩ := hm
    rw [show t'.store = change.apply t.store from h.2]
    exact change.changes hsound
  · exact (h.rewrites fun change he => hm ⟨change, he⟩).changes hsound

theorem sound (h : Execution Step {} history t) : t.store.Sound := by
  induction h with
  | start => exact .empty
  | next before last ih => exact ih.changes (last.changes ih)

/-! ## Invariants of tasks -/

/-- A property of what tasks wait for and are given, in view of the store, is one of every task if
it holds at their start, is kept when they get an answer and go on, and stays true later. -/
theorem waiting_induction {P : Store → (work : Work) → Option work.wait.Event → Prop}
    (hlater : ∀ s s' work answer, s.Later s' → P s work answer → P s' work answer)
    (hstart : ∀ s c work, Operator.MayStart c work → P s work none)
    (hreceive : ∀ s s' work event, s.Sound → s.Answers s' work.wait event → P s work none →
      P s' work (some event))
    (hgoes : ∀ s cs now work event work', Operator.Goes cs now work event work' →
      P s work (some event) → P s work' none)
    (hspawns : ∀ s cs now work event new, Operator.Spawns cs now work event new →
      P s work (some event) → P s new none)
    (h : Execution Step {} history t) {id : Nat} {work : Work} {answer : Option work.wait.Event}
    (hw : t.operator.progress? id = some (.waiting work answer)) : P t.store work answer := by
  induction h generalizing id work with
  | start => cases hw
  | @next history s s' m before last ih =>
    have hl : s.store.Later s'.store := (last.changes (sound before)).later
    cases last.1.waits hw with
    | kept _ h => exact hlater _ _ _ _ hl (ih h)
    | received h _ he =>
      subst he
      exact hreceive _ _ _ _ (sound before) last.2 (ih h)
    | resumed h hg he =>
      subst he
      exact hgoes _ _ _ _ _ _ hg (hlater _ _ _ _ hl (ih h))
    | started _ hm he =>
      subst he
      exact hstart _ _ _ hm
    | spawned _ h hs he =>
      subst he
      exact hspawns _ _ _ _ _ _ hs (hlater _ _ _ _ hl (ih h))

end Site

end CertRuns
