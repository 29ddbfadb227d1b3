import CertRuns.Control.StatusUpdate

/-!
# What a step of a change of a status can do

* `RetryPolicy.Draws` : what may be drawn for a pause; `Steady` : whatever is drawn, there is a pause;
* `StatusUpdate.Resumes now u event turn` : all that can come of a change that is given `event`;
* `StatusUpdate.resumes` : what `StatusUpdate.resume` does is one of these.
-/

namespace CertRuns

namespace RetryPolicy

variable {p : RetryPolicy}

def Draws (p : RetryPolicy) : Option Double → Prop
  | some part => p.draws = true ∧ part.bits ≤ p.jitter.bits
  | none => p.draws = false

/-- There is a pause after every attempt below a number, whatever is drawn for it. -/
def Steady (p : RetryPolicy) (bound : Nat) : Prop :=
  ∀ n part, 0 < n → n < bound → p.Draws part → (p.pause? n part).isSome = true

/-- A policy that draws nothing has all its pauses. -/
theorem steady_of_atMostZero (h : p.jitter.atMostZero = true) (bound : Nat) : p.Steady bound := by
  intro n part _ _ hdraws
  have hnone : p.draws = false := by simp [draws, h]
  cases part with
  | none => simp [pause?, h]
  | some part => simp [Draws, hnone] at hdraws

end RetryPolicy

def Run.changed (run : Run) (change : RunStatus → RunStatus) : Run :=
  { run with status := change run.status }

namespace StatusUpdate

theorem Stage.rest_ne_writing (now : Instant) (pause? : Option Duration) (run : Run) :
    rest now pause? ≠ .writing run := by
  cases pause? <;> nofun

/-- All that can come of a step of a change. -/
inductive Resumes (now : Instant) : (u : StatusUpdate) → u.wait.Event → Turn → Prop
  /-- The run could not be read. -/
  | unread {key : ObjectKey} {change : RunStatus → RunStatus} {policy : RetryPolicy} {attempt : Nat}
      {e : ClusterError} :
      Resumes now ⟨key, change, policy, attempt, .reading⟩ (.error e) (.ended (.error e))
  /-- The run was read; it will be written with its status changed. -/
  | read {key : ObjectKey} {change : RunStatus → RunStatus} {policy : RetryPolicy} {attempt : Nat}
      {run : Run} :
      Resumes now ⟨key, change, policy, attempt, .reading⟩ (.ok run)
        (.going ⟨key, change, policy, attempt, .writing (run.changed change)⟩)
  /-- The write was accepted. -/
  | accepted {key : ObjectKey} {change : RunStatus → RunStatus} {policy : RetryPolicy}
      {attempt : Nat} {run stored : Run} :
      Resumes now ⟨key, change, policy, attempt, .writing run⟩ (.ok stored) (.ended (.ok stored))
  /-- Somebody else wrote in between; the change will start over after a pause with a random part. -/
  | overtaken {key : ObjectKey} {change : RunStatus → RunStatus} {policy : RetryPolicy}
      {attempt : Nat} {run : Run} {e : ClusterError} (he : e.isConflict = true)
      (hn : attempt < policy.steps) (hd : policy.draws = true) :
      Resumes now ⟨key, change, policy, attempt, .writing run⟩ (.error e)
        (.going ⟨key, change, policy, attempt, .drawing⟩)
  /-- The same if no random part is drawn. -/
  | paused {key : ObjectKey} {change : RunStatus → RunStatus} {policy : RetryPolicy}
      {attempt : Nat} {run : Run} {e : ClusterError} (he : e.isConflict = true)
      (hn : attempt < policy.steps) (hd : policy.draws = false) :
      Resumes now ⟨key, change, policy, attempt, .writing run⟩ (.error e)
        (.going ⟨key, change, policy, attempt, .rest now (policy.pause? attempt none)⟩)
  /-- The write was refused, for good. -/
  | refused {key : ObjectKey} {change : RunStatus → RunStatus} {policy : RetryPolicy}
      {attempt : Nat} {run : Run} {e : ClusterError}
      (he : e.isConflict = true → policy.steps ≤ attempt) :
      Resumes now ⟨key, change, policy, attempt, .writing run⟩ (.error e) (.ended (.error e))
  | drawn {key : ObjectKey} {change : RunStatus → RunStatus} {policy : RetryPolicy} {attempt : Nat}
      {part : Double} :
      Resumes now ⟨key, change, policy, attempt, .drawing⟩ part
        (.going ⟨key, change, policy, attempt, .rest now (policy.pause? attempt (some part))⟩)
  /-- The pause is over. -/
  | rested {key : ObjectKey} {change : RunStatus → RunStatus} {policy : RetryPolicy} {attempt : Nat}
      {wake : Instant} :
      Resumes now ⟨key, change, policy, attempt, .resting wake⟩ ()
        (.going ⟨key, change, policy, attempt + 1, .reading⟩)

theorem resumes {now : Instant} {u : StatusUpdate} {event : u.wait.Event} {turn : Turn}
    (h : u.resume now event = turn) : Resumes now u event turn := by
  obtain ⟨key, change, policy, attempt, stage⟩ := u
  subst h
  cases stage with
  | reading =>
    cases event with
    | error e => exact .unread
    | ok run => exact .read
  | writing run =>
    cases event with
    | ok stored => exact .accepted
    | error e =>
      simp only [resume, afterWrite, afterConflict]
      split
      · rename_i hagain
        split
        · rename_i hd
          exact .overtaken hagain.1 hagain.2 hd
        · rename_i hd
          exact .paused hagain.1 hagain.2 (Bool.eq_false_iff.mpr hd)
      · rename_i hlast
        exact .refused fun he => Nat.le_of_not_lt fun hn => hlast ⟨he, hn⟩
  | drawing => exact .drawn
  | resting wake => exact .rested
  | panicked => cases event

end StatusUpdate

end CertRuns
