/-!
# Executions of a system

* `Execution step s₀ history s` : a system that starts in `s₀` has come to `s`; `history` holds the
  steps on the way, the last one first, each with the state in which it was taken;
* `Execution.map` : an execution of a whole is one of its part;
* `Execution.mono` : an execution of a system is one of any system that may do more;
* `Execution.trans` : two executions, one after the other;
* `Execution.split` : an execution up to one of its steps, this step, and what comes after it;
* `countP_cons_toNat` : how often something has happened, one step later.
-/

namespace CertRuns

variable {σ τ μ : Type} {step : σ → μ → σ → Prop} {s₀ s s' : σ} {history : List (σ × μ)}

/-- The executions from `s₀` of a system whose steps are labelled with moves. -/
inductive Execution (step : σ → μ → σ → Prop) (s₀ : σ) : List (σ × μ) → σ → Prop
  | start : Execution step s₀ [] s₀
  | next {history : List (σ × μ)} {s s' : σ} {m : μ} (before : Execution step s₀ history s)
      (last : step s m s') : Execution step s₀ ((s, m) :: history) s'

namespace Execution

/-- If `f` takes every step of a system to a step of another one, then it takes every execution to
an execution. -/
theorem map {step' : τ → μ → τ → Prop} (f : σ → τ)
    (hf : ∀ {s m s'}, step s m s' → step' (f s) m (f s')) (h : Execution step s₀ history s) :
    Execution step' (f s₀) (history.map fun moment => (f moment.1, moment.2)) (f s) := by
  induction h with
  | start => exact .start
  | next _ last ih => exact .next ih (hf last)

/-- If every step of a system is one of another system on the same states, then so is every
execution. -/
theorem mono {step' : σ → μ → σ → Prop} (hstep : ∀ {s m s'}, step s m s' → step' s m s')
    (h : Execution step s₀ history s) : Execution step' s₀ history s := by
  induction h with
  | start => exact .start
  | next _ last ih => exact .next ih (hstep last)

theorem trans {earlier later : List (σ × μ)} (h : Execution step s₀ earlier s)
    (h' : Execution step s later s') : Execution step s₀ (later ++ earlier) s' := by
  induction h' with
  | start => exact h
  | next _ last ih => exact .next ih last

theorem split {earlier later : List (σ × μ)} {m : μ}
    (h : Execution step s₀ (later ++ (s, m) :: earlier) s') :
    ∃ mid, Execution step s₀ earlier s ∧ step s m mid ∧ Execution step mid later s' := by
  induction later generalizing s' with
  | nil =>
    cases h with
    | next before last => exact ⟨_, before, last, .start⟩
  | cons moment later ih =>
    cases h with
    | next before last =>
      obtain ⟨mid, hbefore, hstep, hafter⟩ := ih before
      exact ⟨mid, hbefore, hstep, .next hafter last⟩

end Execution

theorem countP_cons_toNat {α : Type} (p : α → Bool) (moment : α) (history : List α) :
    (moment :: history).countP p = history.countP p + (p moment).toNat := by
  rw [List.countP_cons]
  cases p moment <;> rfl

end CertRuns
