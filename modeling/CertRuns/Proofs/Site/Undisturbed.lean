import CertRuns.Proofs.Operator.Liveness
import CertRuns.Proofs.Site.Script

/-!
# A task that is served

The cluster serves all calls of one task. What else may happen meanwhile is a matter of choice: others
do no more than they may, or the task is left alone.

* `Store.Serves` : what a call that is served does;
* `Served` : a move while a task is served, and others do no more than they may;
  `served_induction` : what holds of the store, the controllers and the task along the way;
* `Undisturbed` : nothing but time goes on besides;
* `comes_to_end` : a task that makes few moves comes to its end if it is left alone, or it panics;
* `Act.alone` : the acts of a script in which it is left alone; `playOn_undisturbed`.
-/

namespace CertRuns

open Rehearsal (Work Result)

/-- What a task is given at the end of its wait, and what becomes of the store. A call is served. -/
def Store.Serves (s s' : Store) : (wait : Wait) → wait.Event → Prop
  | .call r, reply => ∃ stamp, s.perform stamp r = (s', reply)
  | _, _ => s' = s

theorem Store.Serves.answers {s s' : Store} {wait : Wait} {event : wait.Event}
    (h : s.Serves s' wait event) : s.Answers s' wait event := by
  cases wait with
  | call r => exact .inl h
  | _ => exact h

namespace Site

variable {t t' : Site} {m : Move} {history : List (Site × Move)} {id : Nat}

/-- A move while the calls of a task are served, and others do no more than they may. -/
inductive Served (id : Nat) (others : Site → Move → Site → Prop) : Site → Move → Site → Prop
  /-- Others are at work. -/
  | other {t t' : Site} {m : Move} (h : t.Step m t') (hm : m.subject? ≠ some id)
      (ho : others t m t') : Served id others t m t'
  /-- The task is given what it waits for. -/
  | receive {t t' : Site} {work : Work} {event : work.wait.Event}
      (h : t.Step (.receive id work event) t') (hs : t.store.Serves t'.store work.wait event) :
      Served id others t (.receive id work event) t'
  /-- The task goes on. -/
  | resume {t t' : Site} {work : Work} {event : work.wait.Event}
      (h : t.Step (.resume id work event) t') : Served id others t (.resume id work event) t'

def Passes (_ : Site) (m : Move) (_ : Site) : Prop := ∃ time, m = .pass time

/-- A move while a task is left alone. -/
abbrev Undisturbed (id : Nat) : Site → Move → Site → Prop := Served id Passes

variable {others others' : Site → Move → Site → Prop} {t₀ : Site}

theorem Served.step (h : Served id others t m t') : t.Step m t' := by
  cases h with
  | other h | receive h | resume h => exact h

theorem Served.mono (h : Served id others t m t')
    (hmay : t.Step m t' → others t m t' → others' t m t') : Served id others' t m t' := by
  cases h with
  | other h hm ho => exact .other h hm (hmay h ho)
  | receive h hs => exact .receive h hs
  | resume h => exact .resume h

/-- The operator's part of an execution in which a task is served. -/
theorem served_operator (h : Execution (Served id others) t₀ history t) :
    Execution Operator.Step t₀.operator (operatorHistory history) t.operator :=
  h.map Site.operator fun hs => hs.step.1

/-- What holds at first, while others are at work, when the task is given what the store has for it
and when it goes on, holds in the end. -/
theorem served_induction {P : Store → List Controller → Progress → Prop} {p₀ : Progress}
    (h : Execution (Served id others) t₀ history t) (h₀ : t₀.operator.progress? id = some p₀)
    (hstart : P t₀.store t₀.operator.controllers p₀)
    (hother : ∀ t m t' p, P t.store t.operator.controllers p → t.Step m t' → others t m t' →
      P t'.store t'.operator.controllers p)
    (hreceive : ∀ s s' cs work event, P s cs (.waiting work none) → s.Serves s' work.wait event →
      P s' cs (.waiting work (some event)))
    (hresume : ∀ s cs now work event, P s cs (.waiting work (some event)) →
      P s (work.resume cs now event).controllers (.after (work.resume cs now event).next)) :
    ∃ p, t.operator.progress? id = some p ∧ P t.store t.operator.controllers p := by
  induction h with
  | start => exact ⟨p₀, h₀, hstart⟩
  | @next history t t' m before last ih =>
    obtain ⟨p, hp, ih⟩ := ih
    cases last with
    | other h hm ho => exact ⟨p, h.1.progress?_kept hm hp, hother _ _ _ _ ih h ho⟩
    | @receive _ work event h hs =>
      have hw := h.1.1.1
      rw [hp] at hw
      cases hw
      refine ⟨.waiting work (some event), ?_, ?_⟩
      · rw [h.1.2]
        exact Operator.progress?_receive_self hp
      · rw [h.1.2]
        exact hreceive _ _ _ _ _ ih hs
    | @resume _ work event h =>
      have hw := h.1.1
      rw [Operator.Enabled, hp] at hw
      cases hw
      refine ⟨.after (work.resume t.operator.controllers t.operator.clock event).next, ?_, ?_⟩
      · rw [h.1.2, Operator.progress?_resume_self hp]
        rfl
      · rw [show t'.store = t.store from h.2, h.1.controllers]
        exact hresume _ _ _ _ _ ih

/-- Time may pass while a task is left alone. -/
theorem undisturbed_pass {time : Instant} (h : t.Step (.pass time) t') :
    Undisturbed id t (.pass time) t' :=
  .other h (fun hm => by cases hm) ⟨time, rfl⟩

/-- Time changes neither the store nor the controllers. -/
theorem Passes.same (h : Passes t m t') (hs : t.Step m t') :
    t'.store = t.store ∧ t'.operator.controllers = t.operator.controllers := by
  obtain ⟨time, rfl⟩ := h
  exact ⟨hs.2, by rw [hs.1.2]; rfl⟩

/-- The same for a task that is left alone: nobody else touches anything. -/
theorem undisturbed_induction {P : Store → List Controller → Progress → Prop} {p₀ : Progress}
    (h : Execution (Undisturbed id) t₀ history t)
    (h₀ : t₀.operator.progress? id = some p₀) (hstart : P t₀.store t₀.operator.controllers p₀)
    (hreceive : ∀ s s' cs work event, P s cs (.waiting work none) → s.Serves s' work.wait event →
      P s' cs (.waiting work (some event)))
    (hresume : ∀ s cs now work event, P s cs (.waiting work (some event)) →
      P s (work.resume cs now event).controllers (.after (work.resume cs now event).next)) :
    ∃ p, t.operator.progress? id = some p ∧ P t.store t.operator.controllers p := by
  refine served_induction h h₀ hstart (fun t m t' p hp hs hpass => ?_) hreceive hresume
  obtain ⟨hstore, hcontrollers⟩ := hpass.same hs
  rw [hstore, hcontrollers]
  exact hp

/-! ## To the end -/

/-- Every wait of a task that is left alone can come to an end, at once or after a time, unless the
task has panicked. -/
theorem serves_or_lasts (t : Site) (work : Work) {wait : Wait} (hwait : wait ≠ .never) :
    (∃ event store, t.operator.Admits work wait event ∧ t.store.Serves store wait event) ∨
      ∃ time event, t.operator.clock.nanos ≤ time.nanos ∧
        (t.operator.next (.pass time)).Admits work wait event ∧
        t.store.Serves t.store wait event := by
  cases wait with
  | call r => exact .inl ⟨(t.store.perform .epoch r).2, _, trivial, .epoch, rfl⟩
  | never => exact absurd rfl hwait
  | sleep | pause | look | draw =>
    rcases t.operator.admits_or_lasts work hwait with ⟨event, ha⟩ | ⟨time, event, hle, _, ha⟩
    · exact .inl ⟨event, t.store, ha, rfl⟩
    · exact .inr ⟨time, event, hle, ha, rfl⟩

/-- A task that has not ended can be taken further while it is left alone, unless it has panicked. -/
theorem undisturbed_alive {work : Work} {answer : Option work.wait.Event}
    (hw : t.operator.progress? id = some (.waiting work answer)) (hwait : work.wait ≠ .never) :
    ∃ later t', Execution (Undisturbed id) t later t' ∧
      Operator.moves id (operatorHistory later) = 1 := by
  cases answer with
  | some event =>
    have hstep : t.Step (.resume id work event) ⟨t.operator.next (.resume id work event), t.store⟩ :=
      ⟨⟨hw, rfl⟩, rfl⟩
    exact ⟨_, _, .next .start (.resume hstep), Operator.moves_subject rfl⟩
  | none =>
    rcases serves_or_lasts t work hwait with
      ⟨event, store, ha, hs⟩ | ⟨time, event, hle, ha, hs⟩
    · have hstep : t.Step (.receive id work event)
          ⟨t.operator.next (.receive id work event), store⟩ :=
        ⟨⟨⟨hw, ha⟩, rfl⟩, hs.answers⟩
      exact ⟨_, _, .next .start (.receive hstep hs), Operator.moves_subject rfl⟩
    · have hpass : t.Step (.pass time) ⟨t.operator.next (.pass time), t.store⟩ :=
        ⟨⟨hle, rfl⟩, rfl⟩
      have hstep : Site.Step ⟨t.operator.next (.pass time), t.store⟩ (.receive id work event)
          ⟨(t.operator.next (.pass time)).next (.receive id work event), t.store⟩ :=
        ⟨⟨⟨hw, ha⟩, rfl⟩, hs.answers⟩
      refine ⟨_, _, .next (.next .start (undisturbed_pass hpass)) (.receive hstep hs), ?_⟩
      exact (Operator.moves_subject rfl).trans (congrArg (· + 1) (Operator.moves_other nofun))

/-- A task that makes a bounded number of moves while it is left alone can be taken to its end, or it
panics. -/
theorem comes_to_end {t : Site} {p : Progress} (hp : t.operator.progress? id = some p) {bound : Nat}
    (hbound : ∀ later t', Execution (Undisturbed id) t later t' →
      Operator.moves id (operatorHistory later) ≤ bound) :
    ∃ later t', Execution (Undisturbed id) t later t' ∧
      ((∃ result, t'.operator.progress? id = some (.ended result)) ∨
        t'.operator.HasPanicked id) := by
  induction bound generalizing t p with
  | zero =>
    cases p with
    | ended result => exact ⟨[], t, .start, .inl ⟨result, hp⟩⟩
    | waiting work answer =>
      rcases Operator.panicked_or_waits hp with hpanicked | hwait
      · exact ⟨[], t, .start, .inr hpanicked⟩
      · obtain ⟨next, mid, hnext, hmoves⟩ := undisturbed_alive hp hwait
        have hnone := hbound _ _ hnext
        omega
  | succ bound ih =>
    cases p with
    | ended result => exact ⟨[], t, .start, .inl ⟨result, hp⟩⟩
    | waiting work answer =>
      rcases Operator.panicked_or_waits hp with hpanicked | hwait
      · exact ⟨[], t, .start, .inr hpanicked⟩
      · obtain ⟨next, mid, hnext, hmoves⟩ := undisturbed_alive hp hwait
        obtain ⟨q, hq, _⟩ := undisturbed_induction (P := fun _ _ _ => True) hnext hp trivial
          (fun _ _ _ _ _ _ _ => trivial) (fun _ _ _ _ _ _ => trivial)
        have hrest (later : List (Site × Move)) (t' : Site)
            (hlater : Execution (Undisturbed id) mid later t') :
            Operator.moves id (operatorHistory later) ≤ bound := by
          have hall := hbound _ _ (hnext.trans hlater)
          rw [operatorHistory, List.map_append, Operator.moves_append] at hall
          have hused : Operator.moves id (operatorHistory next) = 1 := hmoves
          rw [operatorHistory] at hused ⊢
          omega
        obtain ⟨later, t', hlater, hend⟩ := ih hq hrest
        exact ⟨_, t', hnext.trans hlater, hend⟩

end Site

/-! ## Scripts -/

/-- The acts in which a task is left alone. -/
def Act.alone (id : Nat) : Act → Bool
  | .serve i _ | .wake i | .resume i => i == id
  | .pass _ => true
  | _ => false

namespace Site

variable {t : Site} {m : Move} {id : Nat}

theorem served?_serves {s s' : Store} {stamp : Stamp} {wait : Wait} {event : wait.Event}
    (h : served? s stamp wait = some (s', event)) : s.Serves s' wait event := by
  cases wait with
  | call r => exact ⟨stamp, Option.some.inj h⟩
  | _ => cases h

theorem woken?_serves {s : Store} {now : Instant} {wait : Wait} {event : wait.Event}
    (h : woken? now wait = some event) : s.Serves s wait event := by
  cases wait with
  | sleep wake => rfl
  | _ => cases h

/-- A move that is named by an act in which a task is left alone. -/
theorem move?_undisturbed {a : Act} {store : Store} (ha : a.alone id = true)
    (h : t.move? a = some (m, store)) : Undisturbed id t m ⟨t.operator.next m, store⟩ := by
  have hstep := move?_step h
  cases a with
  | serve i stamp =>
    obtain rfl := eq_of_beq ha
    simp only [move?] at h
    split at h
    · obtain ⟨⟨s', event⟩, hs, he⟩ := Option.map_eq_some_iff.mp h
      cases he
      exact .receive hstep (served?_serves hs)
    · cases h
  | wake i =>
    obtain rfl := eq_of_beq ha
    simp only [move?] at h
    split at h
    · obtain ⟨event, hs, he⟩ := Option.map_eq_some_iff.mp h
      cases he
      exact .receive hstep (woken?_serves hs)
    · cases h
  | resume i =>
    obtain rfl := eq_of_beq ha
    simp only [move?] at h
    split at h
    · cases h
      exact .resume hstep
    · cases h
  | pass time =>
    simp only [move?] at h
    split at h
    · rename_i hle
      cases h
      exact undisturbed_pass hstep
    · cases h
  | _ => cases ha

theorem playOn_undisturbed (t : Site) (script : List Act)
    (h : script.all (Act.alone id) = true) :
    Execution (Undisturbed id) t (t.playOn script).1 (t.playOn script).2 := by
  unfold playOn
  generalize hpast : (([], t) : List (Site × Move) × Site) = past
  have hbefore : Execution (Undisturbed id) t past.1 past.2 := by
    rw [← hpast]
    exact .start
  clear hpast
  induction script generalizing past with
  | nil => exact hbefore
  | cons a script ih =>
    rw [List.all_cons, Bool.and_eq_true] at h
    refine ih h.2 _ (.next hbefore ?_)
    show Undisturbed id past.2 (past.2.act a).1 (past.2.act a).2
    unfold act
    split
    · rename_i m store hm
      exact move?_undisturbed h.1 hm
    · exact undisturbed_pass ⟨⟨Nat.le_refl _, rfl⟩, rfl⟩

end Site

end CertRuns
