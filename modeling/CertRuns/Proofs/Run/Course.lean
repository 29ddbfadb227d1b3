import CertRuns.Run.Basic

/-!
# The course of a run

A run is deployed, perhaps over and over, until it is said to be running; then it comes to its end.
It may also come to its end without ever being said to run.

* `Phase.Attempts`, `Phase.UpToEnd`, `Phase.InOrder` : the orders in which phases may be written;
* `Course` : how far a run has come; `Course.next?` : how a further phase takes it on;
* `Course.after?` : how far a run has come by phases that were written one after the other;
* `Course.inOrder` : such phases are in order;
* `Course.before_running`, `Course.after_terminal` : what comes before and after certain phases.
-/

namespace CertRuns

namespace Phase

/-- Attempts to deploy a run, any number of them. -/
inductive Attempts : List Phase → Prop
  | none : Attempts []
  /-- An attempt that leaves no other trace. -/
  | silent {phases : List Phase} (h : Attempts phases) : Attempts (phases ++ [deploying])
  /-- An attempt that is said to have failed. -/
  | failed {phases : List Phase} (h : Attempts phases) :
      Attempts (phases ++ [deploying, deployError])

/-- The phases of a run up to its end: attempts to deploy it, then perhaps that it is running. -/
inductive UpToEnd : List Phase → Prop
  | deployed {phases : List Phase} (h : Attempts phases) : UpToEnd phases
  | running {phases : List Phase} (h : Attempts phases) : UpToEnd (phases ++ [running])

/-- The phases of a run in the order in which they are written: those up to its end, then perhaps
how it has ended. -/
inductive InOrder : List Phase → Prop
  | unfinished {phases : List Phase} (h : UpToEnd phases) : InOrder phases
  | finished {phases : List Phase} (h : UpToEnd phases) : InOrder (phases ++ [finished])
  | error {phases : List Phase} (h : UpToEnd phases) : InOrder (phases ++ [error])

end Phase

/-- How far a run has come. -/
inductive Course where
  /-- No attempt to deploy it is under way. -/
  | idle
  | deploying
  | running
  /-- It has come to its end. -/
  | ended
  deriving DecidableEq

namespace Course

def next? : Course → Phase → Option Course
  | .idle, .deploying => some .deploying
  | .deploying, .deploying => some .deploying
  | .deploying, .deployError => some .idle
  | .deploying, .running => some .running
  | .ended, _ => none
  | _, .finished => some .ended
  | _, .error => some .ended
  | _, _ => none

/-- How far a run has come by the given phases, none if they are out of order. -/
def after? (phases : List Phase) : Option Course := phases.foldlM next? .idle

def fresh : Course → Bool
  | .idle | .deploying => true
  | .running | .ended => false

variable {c c' : Course} {p : Phase} {phases : List Phase}

theorem next?_terminal (h : c.next? p = some c') (hp : p.isTerminal = true) :
    c ≠ .ended ∧ c' = .ended := by
  cases c <;> cases p <;> cases hp <;> cases h <;> exact ⟨nofun, rfl⟩

theorem next?_of_terminal (hc : c ≠ .ended) (hp : p.isTerminal = true) :
    c.next? p = some .ended := by
  cases c <;> cases p <;> first | rfl | exact absurd rfl hc | cases hp

theorem after?_append (before rest : List Phase) :
    after? (before ++ rest) = (after? before).bind fun c => rest.foldlM next? c := by
  rw [after?, List.foldlM_append]
  rfl

theorem after?_concat (phases : List Phase) (p : Phase) :
    after? (phases ++ [p]) = (after? phases).bind (·.next? p) := by
  simp [after?_append]

/-! ## The phases by which a run has come that far -/

/-- What the phases look like by which a run has come that far. -/
def Shape : Course → List Phase → Prop
  | .idle, phases => Phase.Attempts phases
  | .deploying, phases => ∃ early, Phase.Attempts early ∧ phases = early ++ [.deploying]
  | .running, phases =>
    ∃ early, Phase.Attempts early ∧ phases = early ++ [.deploying] ++ [.running]
  | .ended, phases =>
    ∃ early last, Phase.UpToEnd early ∧ last.isTerminal = true ∧ phases = early ++ [last]

theorem Shape.attempts (h : c.Shape phases) (hc : c.fresh = true) : Phase.Attempts phases := by
  cases c with
  | idle => exact h
  | deploying =>
    obtain ⟨early, he, rfl⟩ := h
    exact .silent he
  | running | ended => cases hc

theorem Shape.upToEnd (h : c.Shape phases) (hc : c ≠ .ended) : Phase.UpToEnd phases := by
  cases c with
  | idle | deploying => exact .deployed (h.attempts rfl)
  | running =>
    obtain ⟨early, he, rfl⟩ := h
    exact .running (.silent he)
  | ended => exact absurd rfl hc

theorem Shape.next (h : c.Shape phases) (hn : c.next? p = some c') : c'.Shape (phases ++ [p]) := by
  by_cases hp : p.isTerminal = true
  · obtain ⟨hc, rfl⟩ := next?_terminal hn hp
    exact ⟨phases, p, h.upToEnd hc, hp, rfl⟩
  · cases c with
    | idle =>
      cases p with
      | deploying =>
        cases hn
        exact ⟨phases, h, rfl⟩
      | finished | error => exact absurd rfl hp
      | _ => cases hn
    | deploying =>
      cases p with
      | deploying =>
        cases hn
        exact ⟨phases, h.attempts rfl, rfl⟩
      | deployError =>
        cases hn
        obtain ⟨early, he, rfl⟩ := h
        rw [List.append_assoc]
        exact .failed he
      | running =>
        cases hn
        obtain ⟨early, he, rfl⟩ := h
        exact ⟨early, he, rfl⟩
      | finished | error => exact absurd rfl hp
      | unset => cases hn
    | running => cases p <;> first | exact absurd rfl hp | cases hn
    | ended => cases p <;> cases hn

theorem Shape.foldlM {early : List Phase} (h : c.Shape early)
    (hf : phases.foldlM next? c = some c') : c'.Shape (early ++ phases) := by
  induction phases generalizing c early with
  | nil =>
    cases hf
    rwa [List.append_nil]
  | cons p phases ih =>
    rw [List.foldlM_cons] at hf
    obtain ⟨c₁, hn, hf⟩ := Option.bind_eq_some_iff.mp hf
    have hshape := ih (h.next hn) hf
    rwa [List.append_assoc] at hshape

theorem shape (h : after? phases = some c) : c.Shape phases :=
  Shape.foldlM (c := .idle) .none h

/-! ## What this says about the phases -/

theorem inOrder (h : after? phases = some c) : Phase.InOrder phases := by
  have hshape := shape h
  by_cases hc : c = .ended
  · subst hc
    obtain ⟨early, last, he, hlast, rfl⟩ := hshape
    cases last with
    | finished => exact .finished he
    | error => exact .error he
    | _ => cases hlast
  · exact .unfinished (hshape.upToEnd hc)

/-- How far a run had come when one of its phases was written. -/
theorem after?_split {before rest : List Phase} (h : after? (before ++ p :: rest) = some c) :
    ∃ c₁ c₂, after? before = some c₁ ∧ c₁.next? p = some c₂ ∧ rest.foldlM next? c₂ = some c := by
  rw [after?_append] at h
  obtain ⟨c₁, h₁, h⟩ := Option.bind_eq_some_iff.mp h
  rw [List.foldlM_cons] at h
  obtain ⟨c₂, h₂, h⟩ := Option.bind_eq_some_iff.mp h
  exact ⟨c₁, c₂, h₁, h₂, h⟩

theorem before_running {before rest : List Phase}
    (h : after? (before ++ .running :: rest) = some c) :
    ∃ early, before = early ++ [.deploying] := by
  obtain ⟨c₁, c₂, h₁, h₂, _⟩ := after?_split h
  cases c₁ with
  | deploying =>
    obtain ⟨early, _, he⟩ := shape h₁
    exact ⟨early, he⟩
  | idle | running | ended => cases h₂

theorem after_terminal {before rest : List Phase} (h : after? (before ++ p :: rest) = some c)
    (hp : p.isTerminal = true) : rest = [] := by
  obtain ⟨c₁, c₂, h₁, h₂, h⟩ := after?_split h
  obtain ⟨_, rfl⟩ := next?_terminal h₂ hp
  cases rest with
  | nil => rfl
  | cons q rest => cases h

end Course

end CertRuns
