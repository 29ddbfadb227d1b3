import CertRuns.Proofs.Control.StatusUpdate
import CertRuns.Proofs.Operator.Liveness

/-!
# The attempts of a change

A change of a status reads the run, writes it, and starts over after a pause if somebody else wrote
in between. However it is answered, it comes to an end after a bounded number of attempts, or it
panics because its policy has no pause for it.

* `Exchange` : what a task asks for and is told; `exchanges` : all of that, in order;
* `LostTry`, `LastTry` : an attempt that is overtaken by another writer, and the one that is not
  repeated; `Tried` : a change that was made in some number of attempts at most;
* `Broken` : a change whose policy has no pause after the attempt that was overtaken last;
* `Trying` : where a change stands after its exchanges; `trying` : every change stands so;
* `tried` : a change makes a bounded number of writes and moves, and ends as `Tried` says or panics
  as `Broken` says.
-/

namespace CertRuns

open Rehearsal (Work Result)

/-- What a task asks for and is told, as far as it concerns a status. -/
inductive Exchange where
  | read (key : ObjectKey) (reply : Except ClusterError Run)
  | write (run : Run) (reply : Except ClusterError Run)
  | draw (part : Double)
  | pause
  /-- Anything else. -/
  | other

/-- Is it a write? -/
def Exchange.isWrite : Exchange → Bool
  | .write .. => true
  | _ => false

/-- A wait and what ends it, as an exchange. -/
def Wait.exchange : (wait : Wait) → wait.Event → Exchange
  | .call (.getRun key), reply => .read key reply
  | .call (.updateRunStatus run), reply => .write run reply
  | .draw _, part => .draw part
  | .sleep _, _ => .pause
  | _, _ => .other

/-! ## Attempts -/

/-- An attempt that was overtaken: the run that was read, the answer to its write, and what was drawn
for the pause after it. -/
structure LostTry where
  run : Run
  cause : ClusterError
  part : Option Double := none

namespace LostTry

variable {policy : RetryPolicy} {lost : List LostTry} {l : LostTry}

/-- The exchanges of an attempt that was overtaken. -/
def exchanges (key : ObjectKey) (change : RunStatus → RunStatus) (l : LostTry) : List Exchange :=
  .read key (.ok l.run) :: .write (l.run.changed change) (.error l.cause) ::
    (l.part.map .draw).toList

/-- The exchanges of the attempts that were overtaken, with a pause after each. -/
def all (key : ObjectKey) (change : RunStatus → RunStatus) (lost : List LostTry) : List Exchange :=
  lost.flatMap fun l => l.exchanges key change ++ [.pause]

/-- Another writer has come first, and the number that the policy asks for was drawn. -/
structure Overtaken (policy : RetryPolicy) (l : LostTry) : Prop where
  conflict : l.cause.isConflict = true
  drawn : policy.Draws l.part

/-- All attempts were overtaken, and there was a pause after each. -/
structure Repeated (policy : RetryPolicy) (lost : List LostTry) : Prop where
  overtaken : ∀ l ∈ lost, l.Overtaken policy
  paused : ∀ k l, lost[k]? = some l → (policy.pause? (k + 1) l.part).isSome = true

theorem repeated_nil : Repeated policy [] :=
  ⟨List.forall_mem_nil _, fun k l hk => by simp at hk⟩

theorem Repeated.concat (h : Repeated policy lost) (hl : l.Overtaken policy)
    (hpause : (policy.pause? (lost.length + 1) l.part).isSome = true) :
    Repeated policy (lost ++ [l]) := by
  refine ⟨fun k hk => ?_, fun k l' hk => ?_⟩
  · rcases List.mem_append.mp hk with hk | hk
    · exact h.overtaken k hk
    · rw [List.mem_singleton.mp hk]
      exact hl
  · rw [List.getElem?_append] at hk
    split at hk
    · exact h.paused k l' hk
    · rw [List.getElem?_singleton] at hk
      split at hk
      · cases hk
        rw [show k = lost.length by omega]
        exact hpause
      · cases hk

end LostTry

/-- The exchanges of the last attempt, and what the change returns. It returns a conflict only if no
attempt is left. -/
inductive LastTry (key : ObjectKey) (change : RunStatus → RunStatus) (left : Nat) :
    List Exchange → Except ClusterError Run → Prop
  | unread {e : ClusterError} : LastTry key change left [.read key (.error e)] (.error e)
  | accepted {run stored : Run} :
      LastTry key change left
        [.read key (.ok run), .write (run.changed change) (.ok stored)] (.ok stored)
  | refused {run : Run} {e : ClusterError} (he : e.isConflict = true → left = 0) :
      LastTry key change left
        [.read key (.ok run), .write (run.changed change) (.error e)] (.error e)

/-- How often a change may be tried. The first attempt is always made. -/
def Operator.limit (policy : RetryPolicy) : Nat := max 1 policy.steps

open Operator (limit)

/-- The exchanges of a change that has come to its end, and what it returns. Every attempt but the
last one is overtaken, and followed by one pause. -/
inductive Tried (key : ObjectKey) (change : RunStatus → RunStatus) (policy : RetryPolicy)
    (log : List Exchange) (result : Except ClusterError Run) : Prop
  | intro (lost : List LostTry) (last : List Exchange) (hlost : LostTry.Repeated policy lost)
      (hlimit : lost.length < limit policy)
      (hlast : LastTry key change (limit policy - lost.length - 1) last result)
      (hlog : log = LostTry.all key change lost ++ last)

/-- The exchanges of a change that has panicked. Its last attempt was overtaken too, and would have
been repeated, but the policy has no pause after it. -/
inductive Broken (key : ObjectKey) (change : RunStatus → RunStatus) (policy : RetryPolicy)
    (log : List Exchange) : Prop
  | intro (lost : List LostTry) (l : LostTry) (hlost : LostTry.Repeated policy lost)
      (hlimit : lost.length + 1 < limit policy) (hl : l.Overtaken policy)
      (hpause : policy.pause? (lost.length + 1) l.part = none)
      (hlog : log = LostTry.all key change lost ++ l.exchanges key change)

namespace LostTry

theorem all_concat (key : ObjectKey) (change : RunStatus → RunStatus) (lost : List LostTry)
    (l : LostTry) : all key change (lost ++ [l]) =
      all key change lost ++ l.exchanges key change ++ [.pause] := by
  simp [all]

theorem length_exchanges (key : ObjectKey) (change : RunStatus → RunStatus) (l : LostTry) :
    (l.exchanges key change).length ≤ 3 := by
  cases hpart : l.part <;> simp [exchanges, hpart]

theorem writes_exchanges (key : ObjectKey) (change : RunStatus → RunStatus) (l : LostTry) :
    (l.exchanges key change).countP Exchange.isWrite = 1 := by
  cases hpart : l.part <;> simp [exchanges, hpart, Exchange.isWrite, List.countP_cons]

theorem length_all (key : ObjectKey) (change : RunStatus → RunStatus) (lost : List LostTry) :
    (all key change lost).length ≤ 4 * lost.length := by
  induction lost with
  | nil => exact Nat.le_refl 0
  | cons l lost ih =>
    have hfirst := l.length_exchanges key change
    have hrest : (lost.flatMap fun l => l.exchanges key change ++ [.pause]).length ≤
        4 * lost.length := ih
    simp only [all, List.flatMap_cons, List.length_append, List.length_cons, List.length_nil]
    omega

theorem writes_all (key : ObjectKey) (change : RunStatus → RunStatus) (lost : List LostTry) :
    (all key change lost).countP Exchange.isWrite = lost.length := by
  induction lost with
  | nil => rfl
  | cons l lost ih =>
    rw [all, List.flatMap_cons, List.countP_append, show (lost.flatMap _).countP _ = _ from ih,
      List.countP_append, writes_exchanges, List.length_cons]
    simp [Exchange.isWrite]
    omega

end LostTry

namespace Operator

variable {c₀ c c' : Operator} {m : Move} {history : List (Operator × Move)} {id : Nat}
  {key : ObjectKey} {change : RunStatus → RunStatus} {policy : RetryPolicy}

/-- What a task has asked for and was told, in order. -/
def exchanges (id : Nat) (history : List (Operator × Move)) : List Exchange :=
  ((told id (fun work event => some (work.wait.exchange event)) history).map (·.2)).reverse

theorem exchanges_other (hm : ∀ work event, m ≠ .receive id work event) :
    exchanges id ((c, m) :: history) = exchanges id history := by
  rw [exchanges, told_other hm]
  rfl

theorem exchanges_receive (work : Work) (event : work.wait.Event) :
    exchanges id ((c, .receive id work event) :: history) =
      exchanges id history ++ [work.wait.exchange event] := by
  rw [exchanges, told_cons, Move.told?_receive]
  simp [exchanges]

/-- Where a change stands after its exchanges. -/
inductive Trying (key : ObjectKey) (change : RunStatus → RunStatus) (policy : RetryPolicy) :
    List Exchange → Progress → Prop
  /-- It reads the run. -/
  | reading (lost : List LostTry) (hlost : LostTry.Repeated policy lost)
      (hlimit : lost.length < limit policy) :
      Trying key change policy (LostTry.all key change lost)
        (.waiting (.update ⟨key, change, policy, lost.length + 1, .reading⟩) none)
  /-- It has been told about the run. -/
  | read (lost : List LostTry) (hlost : LostTry.Repeated policy lost)
      (hlimit : lost.length < limit policy) (reply : Except ClusterError Run) :
      Trying key change policy (LostTry.all key change lost ++ [.read key reply])
        (.waiting (.update ⟨key, change, policy, lost.length + 1, .reading⟩) (some reply))
  /-- It writes the run. -/
  | writing (lost : List LostTry) (hlost : LostTry.Repeated policy lost)
      (hlimit : lost.length < limit policy) (run : Run) :
      Trying key change policy (LostTry.all key change lost ++ [.read key (.ok run)])
        (.waiting (.update
          ⟨key, change, policy, lost.length + 1, .writing (run.changed change)⟩) none)
  /-- It has been told what has become of its write. -/
  | wrote (lost : List LostTry) (hlost : LostTry.Repeated policy lost)
      (hlimit : lost.length < limit policy) (run : Run) (reply : Except ClusterError Run) :
      Trying key change policy
        (LostTry.all key change lost ++
          [.read key (.ok run), .write (run.changed change) reply])
        (.waiting (.update
          ⟨key, change, policy, lost.length + 1, .writing (run.changed change)⟩) (some reply))
  /-- It was overtaken, and draws the random part of its pause. -/
  | drawing (lost : List LostTry) (hlost : LostTry.Repeated policy lost)
      (hlimit : lost.length + 1 < limit policy) (run : Run) (cause : ClusterError)
      (hcause : cause.isConflict = true) (hdraws : policy.draws = true) :
      Trying key change policy
        (LostTry.all key change lost ++ (LostTry.mk run cause none).exchanges key change)
        (.waiting (.update ⟨key, change, policy, lost.length + 1, .drawing⟩) none)
  /-- It has drawn the random part. -/
  | drawn (lost : List LostTry) (hlost : LostTry.Repeated policy lost)
      (hlimit : lost.length + 1 < limit policy) (run : Run) (cause : ClusterError) (part : Double)
      (hl : (LostTry.mk run cause (some part)).Overtaken policy) :
      Trying key change policy
        (LostTry.all key change lost ++ (LostTry.mk run cause (some part)).exchanges key change)
        (.waiting (.update ⟨key, change, policy, lost.length + 1, .drawing⟩) (some part))
  /-- It pauses after it was overtaken. -/
  | resting (lost : List LostTry) (l : LostTry) (wake : Instant)
      (hlost : LostTry.Repeated policy (lost ++ [l])) (hlimit : lost.length + 1 < limit policy) :
      Trying key change policy (LostTry.all key change lost ++ l.exchanges key change)
        (.waiting (.update ⟨key, change, policy, lost.length + 1, .resting wake⟩) none)
  /-- Its pause is over. -/
  | rested (lost : List LostTry) (l : LostTry) (wake : Instant)
      (hlost : LostTry.Repeated policy (lost ++ [l])) (hlimit : lost.length + 1 < limit policy) :
      Trying key change policy (LostTry.all key change (lost ++ [l]))
        (.waiting (.update ⟨key, change, policy, lost.length + 1, .resting wake⟩) (some ()))
  /-- It has panicked. -/
  | panicked (lost : List LostTry) (l : LostTry) (hlost : LostTry.Repeated policy lost)
      (hlimit : lost.length + 1 < limit policy) (hl : l.Overtaken policy)
      (hpause : policy.pause? (lost.length + 1) l.part = none) :
      Trying key change policy (LostTry.all key change lost ++ l.exchanges key change)
        (.waiting (.update ⟨key, change, policy, lost.length + 1, .panicked⟩) none)
  /-- It has come to its end. -/
  | ended {log : List Exchange} {result : Except ClusterError Run}
      (h : Tried key change policy log result) :
      Trying key change policy log (.ended (.updated result))

/-- A change that is about to start has exchanged nothing. -/
theorem Trying.start (key : ObjectKey) (change : RunStatus → RunStatus) (policy : RetryPolicy) :
    Trying key change policy [] (.waiting (.update (.start key policy change)) none) := by
  have hlimit : ([] : List LostTry).length < limit policy := by
    rw [limit, List.length_nil]
    omega
  exact .reading [] LostTry.repeated_nil hlimit

/-- A change that begins its pause rests, or it panics. -/
theorem Trying.rest {lost : List LostTry} {l : LostTry} (hlost : LostTry.Repeated policy lost)
    (hlimit : lost.length + 1 < limit policy) (hl : l.Overtaken policy) (now : Instant) :
    Trying key change policy (LostTry.all key change lost ++ l.exchanges key change)
      (.waiting (.update ⟨key, change, policy, lost.length + 1,
        .rest now (policy.pause? (lost.length + 1) l.part)⟩) none) := by
  cases hpause : policy.pause? (lost.length + 1) l.part with
  | none => exact .panicked lost l hlost hlimit hl hpause
  | some pause => exact .resting lost l _ (hlost.concat hl (by rw [hpause]; rfl)) hlimit

theorem Trying.receive {log : List Exchange} {work : Work}
    (h : Trying key change policy log (.waiting work none)) {event : work.wait.Event}
    (ha : c.Admits work work.wait event) :
    Trying key change policy (log ++ [work.wait.exchange event]) (.waiting work (some event)) := by
  cases h with
  | reading lost hlost hlimit => exact .read lost hlost hlimit event
  | writing lost hlost hlimit run =>
    rw [List.append_assoc]
    exact .wrote lost hlost hlimit run event
  | drawing lost hlost hlimit run cause hcause hdraws =>
    rw [List.append_assoc]
    exact .drawn lost hlost hlimit run cause event ⟨hcause, hdraws, ha⟩
  | resting lost l wake hlost hlimit =>
    rw [show Wait.exchange _ event = .pause from rfl, ← LostTry.all_concat]
    exact .rested lost l wake hlost hlimit
  | panicked => exact event.elim

theorem Trying.resume {log : List Exchange} {work : Work} {event : work.wait.Event}
    (h : Trying key change policy log (.waiting work (some event))) (cs : List Controller)
    (now : Instant) :
    Trying key change policy log (.after (work.resume cs now event).next) := by
  cases h with
  | read lost hlost hlimit reply =>
    cases reply with
    | error e => exact .ended ⟨lost, _, hlost, hlimit, .unread, rfl⟩
    | ok run => exact .writing lost hlost hlimit run
  | wrote lost hlost hlimit run reply =>
    simp only [Work.resume]
    generalize hturn : StatusUpdate.resume now
      ⟨key, change, policy, lost.length + 1, .writing (run.changed change)⟩ reply = turn
    cases StatusUpdate.resumes hturn with
    | accepted => exact .ended ⟨lost, _, hlost, hlimit, .accepted, rfl⟩
    | @overtaken _ _ _ _ _ e he hn hdraws =>
      exact .drawing lost hlost (by rw [limit]; omega) run e he hdraws
    | @paused _ _ _ _ _ e he hn hdraws =>
      have hrest : (LostTry.mk run e none).Overtaken policy := ⟨he, hdraws⟩
      exact .rest hlost (by rw [limit]; omega) hrest now
    | refused he =>
      refine .ended ⟨lost, _, hlost, hlimit, .refused fun hconflict => ?_, rfl⟩
      have hsteps := he hconflict
      rw [limit] at hlimit ⊢
      omega
  | drawn lost hlost hlimit run cause part hl => exact .rest hlost hlimit hl now
  | rested lost l wake hlost hlimit =>
    have hlength : lost.length + 1 = (lost ++ [l]).length := by simp
    have hnext := @Trying.reading key change policy (lost ++ [l]) hlost (hlength ▸ hlimit)
    rw [← hlength] at hnext
    exact hnext

/-- Every change stands in one of these ways after its exchanges, and has made two moves for each of
them. -/
theorem trying (h : Execution Step c₀ history c)
    (hstart : c₀.progress? id = some (.waiting (.update (.start key policy change)) none)) :
    ∃ p, c.progress? id = some p ∧ Trying key change policy (exchanges id history) p ∧
      moves id history + p.lead = 2 * (exchanges id history).length := by
  refine task_induction
    (P := fun history _ p => Trying key change policy (exchanges id history) p ∧
      moves id history + p.lead = 2 * (exchanges id history).length) h hstart ?_ ?_ ?_ ?_
  · exact ⟨.start key change policy, rfl⟩
  · intro history c c' m p ⟨ht, hn⟩ _ _ hm
    have hother : ∀ work event, m ≠ .receive id work event := fun _ _ he => hm (by rw [he]; rfl)
    rw [exchanges_other hother, moves_other hm]
    exact ⟨ht, hn⟩
  · intro history c c' work event ⟨ht, hn⟩ hstep
    have hn : moves id history + 0 = 2 * (exchanges id history).length := hn
    rw [exchanges_receive, moves_subject rfl, List.length_append, List.length_singleton]
    refine ⟨ht.receive hstep.1.2, ?_⟩
    rw [Progress.lead]
    omega
  · intro history c c' work event ⟨ht, hn⟩ _
    have hn : moves id history + 1 = 2 * (exchanges id history).length := hn
    rw [exchanges_other fun _ _ he => (by cases he), moves_subject rfl, hn]
    refine ⟨ht.resume _ _, ?_⟩
    cases (work.resume c.controllers c.clock event).next <;> rfl

theorem lastTry_bounded {left : Nat} {last : List Exchange} {result : Except ClusterError Run}
    (h : LastTry key change left last result) :
    last.countP Exchange.isWrite ≤ 1 ∧ last.length ≤ 2 := by
  cases h with
  | unread => exact ⟨Nat.zero_le 1, Nat.le_succ 1⟩
  | accepted | refused => exact ⟨Nat.le_refl 1, Nat.le_refl 2⟩

/-- Some attempts that were overtaken, and what has been made of the next one. -/
theorem exchanges_bounded {lost : List LostTry} (hlimit : lost.length < limit policy)
    {last : List Exchange} (hwrites : last.countP Exchange.isWrite ≤ 1) (hlength : last.length ≤ 3) :
    (LostTry.all key change lost ++ last).countP Exchange.isWrite ≤ limit policy ∧
      (LostTry.all key change lost ++ last).length < 4 * limit policy := by
  have hall := LostTry.length_all key change lost
  rw [List.countP_append, List.length_append, LostTry.writes_all]
  omega

theorem overtaken_bounded {lost : List LostTry} (l : LostTry)
    (hlimit : lost.length + 1 < limit policy) :
    (LostTry.all key change lost ++ l.exchanges key change).countP Exchange.isWrite ≤
        limit policy ∧
      (LostTry.all key change lost ++ l.exchanges key change).length < 4 * limit policy :=
  exchanges_bounded (Nat.lt_of_succ_lt hlimit) (Nat.le_of_eq (l.writes_exchanges key change))
    (l.length_exchanges key change)

/-- A change has made few writes and few exchanges. -/
theorem Trying.bounded {log : List Exchange} {p : Progress} (h : Trying key change policy log p) :
    log.countP Exchange.isWrite ≤ limit policy ∧ log.length < 4 * limit policy := by
  cases h with
  | reading lost hlost hlimit =>
    rw [← List.append_nil (LostTry.all key change lost)]
    exact exchanges_bounded hlimit (Nat.zero_le 1) (Nat.zero_le 3)
  | read lost hlost hlimit | writing lost hlost hlimit =>
    exact exchanges_bounded hlimit (Nat.zero_le 1) (by simp)
  | wrote lost hlost hlimit => exact exchanges_bounded hlimit (Nat.le_refl 1) (by simp)
  | drawing lost hlost hlimit | drawn lost hlost hlimit => exact overtaken_bounded _ hlimit
  | resting lost l wake hlost hlimit | panicked lost l hlost hlimit =>
    exact overtaken_bounded l hlimit
  | rested lost l wake hlost hlimit =>
    have hlength : (lost ++ [l]).length < limit policy := by simpa using hlimit
    rw [← List.append_nil (LostTry.all key change (lost ++ [l]))]
    exact exchanges_bounded hlength (Nat.zero_le 1) (Nat.zero_le 3)
  | ended h =>
    obtain ⟨lost, last, hlost, hlimit, hlast, rfl⟩ := h
    obtain ⟨hwrites, hlength⟩ := lastTry_bounded hlast
    exact exchanges_bounded hlimit hwrites (Nat.le_succ_of_le hlength)

/-- A change makes a bounded number of writes and of moves. It has ended after its attempts, has
panicked because there is no pause after one, or can be taken further. -/
theorem tried (h : Execution Step c₀ history c)
    (hstart : c₀.progress? id = some (.waiting (.update (.start key policy change)) none)) :
    (exchanges id history).countP Exchange.isWrite ≤ limit policy ∧
      moves id history < 8 * limit policy ∧
      ((∃ result, c.progress? id = some (.ended (.updated result)) ∧
        Tried key change policy (exchanges id history) result) ∨
        (c.HasPanicked id ∧ Broken key change policy (exchanges id history)) ∨ c.Alive id) := by
  obtain ⟨p, hp, htrying, hmoves⟩ := trying h hstart
  obtain ⟨hwrites, hlength⟩ := htrying.bounded
  refine ⟨hwrites, by omega, ?_⟩
  generalize exchanges id history = log at htrying
  cases htrying with
  | ended htried => exact .inl ⟨_, hp, htried⟩
  | panicked lost l hlost hlimit hl hpause =>
    exact .inr (.inl ⟨⟨_, hp, rfl⟩, lost, l, hlost, hlimit, hl, hpause, rfl⟩)
  | reading | read | writing | wrote | drawing | drawn | resting | rested =>
    exact .inr (.inr (alive hp nofun))

end Operator

end CertRuns
