import CertRuns.Proofs.Operator.Fates

/-!
# Tasks get on

Nothing but the end of its wait keeps a task from going on, and every wait can come to an end: calls
are answered, numbers are drawn, and time passes. Only a task that has panicked waits for good.

* `Wait.lasts` : a wait that only time ends lasts until a point of time;
* `prompt` : time does not pass the point at which a task can go on;
* `Alive` : a task can be taken further; `HasPanicked` : it waits for good;
* `alive` : every task can that has not ended, unless it has panicked;
* `moves` : how often a task was taken further. One that makes few moves and is alive until its end
  comes to its end;
* `task_induction` : the induction along an execution that follows one task.
-/

namespace CertRuns

open Rehearsal (Work Result)

def Wait.lasts (time : Instant) : Wait → Prop
  | .sleep wake => time.nanos ≤ wake.nanos
  | .pause _ deadline tick => (∀ d ∈ deadline, time.nanos ≤ d.nanos) ∧ time.nanos ≤ tick.nanos
  | .call _ | .look | .draw _ => False
  | .never => True

instance (time : Instant) : (wait : Wait) → Decidable (wait.lasts time)
  | .sleep wake => inferInstanceAs (Decidable (time.nanos ≤ wake.nanos))
  | .pause _ deadline tick =>
    inferInstanceAs (Decidable ((∀ d ∈ deadline, time.nanos ≤ d.nanos) ∧ time.nanos ≤ tick.nanos))
  | .call _ | .look | .draw _ => isFalse id
  | .never => isTrue trivial

theorem Rehearsal.Work.hasPanicked_iff {work : Work} :
    work.hasPanicked = true ↔ work.wait = .never := by
  unfold hasPanicked
  split
  · rename_i h
    exact ⟨fun _ => h, fun _ => rfl⟩
  · rename_i h
    exact ⟨nofun, fun hw => absurd hw h⟩

/-- How far a task has come after a step. -/
def Progress.after : Rehearsal.Next → Progress
  | .going work => .waiting work none
  | .ended result => .ended result

/-- The answers by which a task is ahead of what it has gone on with. -/
def Progress.lead : Progress → Nat
  | .waiting _ (some _) => 1
  | _ => 0

namespace Operator

variable {c c' : Operator} {m : Move} {history : List (Operator × Move)} {id : Nat}

/-- Time does not pass the point at which a task can go on. A task that has been answered goes on at
once, and a call is answered at once. -/
def prompt (id : Nat) : Operator × Move → Prop
  | (c, .pass time) => ∀ work answer, c.progress? id = some (.waiting work answer) →
      answer = none ∧ work.wait.lasts time
  | _ => True

instance (id : Nat) : (moment : Operator × Move) → Decidable (prompt id moment)
  | (c, .pass time) =>
    match hp : c.progress? id with
    | some (.waiting work none) => decidable_of_iff (work.wait.lasts time) (by
        refine ⟨fun h work answer he => ?_, fun h => (h work none hp).2⟩
        rw [hp] at he
        cases he
        exact ⟨rfl, h⟩)
    | some (.waiting work (some event)) => isFalse fun h => nomatch (h work (some event) hp).1
    | some (.ended _) | none => isTrue fun work answer he => by
        rw [hp] at he
        cases he
  | (_, .install ..) | (_, .shutDown _) | (_, .raise _) | (_, .start _) | (_, .receive ..)
  | (_, .resume ..) | (_, .outside _) => isTrue trivial

/-- A task can be taken further, at once or after a time that is not too long for it. -/
def Alive (c : Operator) (id : Nat) : Prop :=
  ∃ m : Move, m.subject? = some id ∧ (c.Enabled m ∨
    ∃ time, c.Enabled (.pass time) ∧ prompt id (c, .pass time) ∧ (c.next (.pass time)).Enabled m)

/-- A task waits for good. -/
def HasPanicked (c : Operator) (id : Nat) : Prop :=
  ∃ work, c.progress? id = some (.waiting work none) ∧ work.hasPanicked = true

/-- Every wait that is not for good can come to an end, at once or after a time. -/
theorem admits_or_lasts (c : Operator) (work : Work) {wait : Wait} (hwait : wait ≠ .never) :
    (∃ event, c.Admits work wait event) ∨
      ∃ time event, c.clock.nanos ≤ time.nanos ∧ wait.lasts time ∧
        (c.next (.pass time)).Admits work wait event := by
  cases wait with
  | call r => exact .inl ⟨.error (.transport ""), trivial⟩
  | look => exact .inl ⟨.missing, trivial⟩
  | draw bound => exact .inl ⟨bound, show bound.bits ≤ bound.bits from UInt64.le_refl _⟩
  | never => exact absurd rfl hwait
  | sleep wake =>
    rcases Nat.le_total wake.nanos c.clock.nanos with hdue | hlater
    · exact .inl ⟨(), hdue⟩
    · exact .inr ⟨wake, (), hlater, Nat.le_refl _, Nat.le_refl _⟩
  | pause token deadline tick =>
    rcases Nat.le_total tick.nanos c.clock.nanos with hdue | hlater
    · exact .inl ⟨.tick, hdue⟩
    · -- the deadline or the tick, whichever comes first, ends the pause
      cases deadline with
      | none => exact .inr ⟨tick, .tick, hlater, ⟨nofun, Nat.le_refl _⟩, Nat.le_refl _⟩
      | some limit =>
        rcases Nat.le_total limit.nanos c.clock.nanos with hover | hopen
        · exact .inl ⟨.deadline, limit, rfl, hover⟩
        · rcases Nat.le_total limit.nanos tick.nanos with hfirst | hfirst
          · refine .inr ⟨limit, .deadline, hopen, ⟨fun d hd => ?_, hfirst⟩, limit, rfl, Nat.le_refl _⟩
            cases hd
            exact Nat.le_refl _
          · refine .inr ⟨tick, .tick, hlater, ⟨fun d hd => ?_, Nat.le_refl _⟩, Nat.le_refl _⟩
            cases hd
            exact hfirst

theorem alive {work : Work} {answer : Option work.wait.Event}
    (h : c.progress? id = some (.waiting work answer)) (hwait : work.wait ≠ .never) :
    c.Alive id := by
  cases answer with
  | some event => exact ⟨.resume id work event, rfl, .inl h⟩
  | none =>
    rcases admits_or_lasts c work hwait with ⟨event, ha⟩ | ⟨time, event, hle, hlasts, ha⟩
    · exact ⟨.receive id work event, rfl, .inl ⟨h, ha⟩⟩
    · refine ⟨.receive id work event, rfl, .inr ⟨time, hle, fun other answer hp => ?_, h, ha⟩⟩
      rw [h] at hp
      cases hp
      exact ⟨rfl, hlasts⟩

/-- A task that has not ended has panicked, or its wait is not for good. -/
theorem panicked_or_waits {work : Work} {answer : Option work.wait.Event}
    (h : c.progress? id = some (.waiting work answer)) :
    c.HasPanicked id ∨ work.wait ≠ .never := by
  by_cases hwait : work.wait = .never
  · cases answer with
    | none => exact .inl ⟨work, h, Work.hasPanicked_iff.mpr hwait⟩
    | some event => exact (hwait ▸ event : Wait.never.Event).elim
  · exact .inr hwait

/-! ## Counting moves -/

/-- How often a task was taken further. -/
def moves (id : Nat) (history : List (Operator × Move)) : Nat :=
  history.countP fun moment => moment.2.subject? == some id

theorem moves_other (hm : m.subject? ≠ some id) :
    moves id ((c, m) :: history) = moves id history :=
  List.countP_cons_of_neg (by rwa [beq_iff_eq])

theorem moves_subject (hm : m.subject? = some id) :
    moves id ((c, m) :: history) = moves id history + 1 :=
  List.countP_cons_of_pos (beq_iff_eq.mpr hm)

theorem moves_append (later earlier : List (Operator × Move)) :
    moves id (later ++ earlier) = moves id later + moves id earlier :=
  List.countP_append

/-- A task that has ended makes no moves. -/
theorem Step.subject?_ended (h : c.Step m c') {result : Result}
    (hp : c.progress? id = some (.ended result)) : m.subject? ≠ some id := by
  intro hm
  cases m with
  | receive i work event =>
    cases hm
    have hw := h.1.1
    rw [hp] at hw
    cases hw
  | resume i work event =>
    cases hm
    have hw := h.1
    rw [Enabled, hp] at hw
    cases hw
  | _ => cases hm

/-- A task that has panicked makes no moves. -/
theorem Step.subject?_panicked (h : c.Step m c') (hp : c.HasPanicked id) :
    m.subject? ≠ some id := by
  obtain ⟨work, hw, hpanicked⟩ := hp
  have hwait := Work.hasPanicked_iff.mp hpanicked
  intro hm
  cases m with
  | receive i other event =>
    cases hm
    have hsame := h.1.1
    rw [hw] at hsame
    cases hsame
    exact (hwait ▸ event : Wait.never.Event).elim
  | resume i other event =>
    cases hm
    have hsame := h.1
    rw [Enabled, hw] at hsame
    cases hsame
  | _ => cases hm

theorem Step.panicked (h : c.Step m c') (hp : c.HasPanicked id) : c'.HasPanicked id := by
  obtain ⟨work, hw, hpanicked⟩ := hp
  exact ⟨work, h.progress?_kept (h.subject?_panicked ⟨work, hw, hpanicked⟩) hw, hpanicked⟩

theorem HasPanicked.rest (hp : c.HasPanicked id) (h : Execution Step c history c') :
    c'.HasPanicked id ∧ ∀ moment ∈ history, moment.2.subject? ≠ some id := by
  induction h with
  | start => exact ⟨hp, List.forall_mem_nil _⟩
  | next _ last ih =>
    obtain ⟨hthen, hrest⟩ := ih
    refine ⟨last.panicked hthen, fun moment hmem => ?_⟩
    rcases List.mem_cons.mp hmem with rfl | hmem
    · exact last.subject?_panicked hthen
    · exact hrest moment hmem

/-- A task that makes no moves, neither now nor after a time, cannot be taken further. -/
theorem not_alive_of_rest (h : ∀ m, m.subject? = some id → ¬ c.Enabled m)
    (hlater : ∀ time m, m.subject? = some id → ¬ (c.next (.pass time)).Enabled m) :
    ¬ c.Alive id := by
  rintro ⟨m, hm, hnow | ⟨time, _, _, hthen⟩⟩
  · exact h m hm hnow
  · exact hlater time m hm hthen

/-- A task that has ended cannot be taken further. -/
theorem not_alive {result : Result} (h : c.progress? id = some (.ended result)) :
    ¬ c.Alive id := by
  have never {c : Operator} (h : c.progress? id = some (.ended result)) (m : Move)
      (hm : m.subject? = some id) : ¬ c.Enabled m := fun he =>
    (show c.Step m (c.next m) from ⟨he, rfl⟩).subject?_ended h hm
  exact not_alive_of_rest (never h) fun time => never (c := c.next (.pass time)) h

/-- Nor can one that has panicked. -/
theorem HasPanicked.not_alive (h : c.HasPanicked id) : ¬ c.Alive id := by
  have never {c : Operator} (h : c.HasPanicked id) (m : Move) (hm : m.subject? = some id) :
      ¬ c.Enabled m := fun he =>
    (show c.Step m (c.next m) from ⟨he, rfl⟩).subject?_panicked h hm
  exact not_alive_of_rest (never h) fun time => never (c := c.next (.pass time)) h

/-! ## The course of one task -/

/-- What holds of a task at first, while others move, when it is given what it waits for and when it
goes on, holds of it in the end. -/
theorem task_induction {c₀ : Operator} {p₀ : Progress}
    {P : List (Operator × Move) → Operator → Progress → Prop} (h : Execution Step c₀ history c)
    (h₀ : c₀.progress? id = some p₀) (hstart : P [] c₀ p₀)
    (hother : ∀ history c c' m p, P history c p → c.Step m c' → c.progress? id = some p →
      m.subject? ≠ some id → P ((c, m) :: history) c' p)
    (hreceive : ∀ history c c' work event, P history c (.waiting work none) →
      c.Step (.receive id work event) c' →
      P ((c, .receive id work event) :: history) c' (.waiting work (some event)))
    (hresume : ∀ history c c' work event, P history c (.waiting work (some event)) →
      c.Step (.resume id work event) c' →
      P ((c, .resume id work event) :: history) c'
        (.after (work.resume c.controllers c.clock event).next)) :
    ∃ p, c.progress? id = some p ∧ P history c p := by
  induction h with
  | start => exact ⟨p₀, h₀, hstart⟩
  | @next history s s' m before last ih =>
    obtain ⟨p, hp, ih⟩ := ih
    by_cases hm : m.subject? = some id
    · cases p with
      | ended result => exact absurd hm (last.subject?_ended hp)
      | waiting work answer =>
        cases last.fate hp with
        | kept hne => exact absurd hm hne
        | given ha h =>
          subst ha
          exact ⟨_, h, hreceive _ _ _ _ _ ih last⟩
        | taken ha =>
          subst ha
          refine ⟨_, ?_, hresume _ _ _ _ _ ih last⟩
          rw [last.2, progress?_resume_self hp]
          rfl
    · exact ⟨p, last.progress?_kept hm hp, hother _ _ _ _ _ ih last hp hm⟩

end Operator

end CertRuns
