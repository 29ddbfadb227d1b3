import CertRuns.Proofs.Operator.Attempts
import CertRuns.Proofs.Site.Undisturbed

/-!
# A change at a cluster that refuses writes

A cluster that refuses some writes with a conflict uses up one refusal for each attempt. A change
of a run that nobody else writes is made if there are fewer refusals than attempts, and if its policy
has the pauses that it needs.

* `Unrivalled` : a move while nobody else writes a run or uses up a refusal;
* `Store.Refuses` : a store holds a run and will refuse some writes; `Refuses.read`,
  `Refuses.write` : what a read and a write under the stored version come to there;
* `Contending` : where a change stands whose run is stored; `contending` : every change stands so;
* `Missing` : the same if the run is not there;
* `updates_bounded` : a change at any cluster, and one at a cluster in memory; `not_always_made` : one
  that is never made.
-/

namespace CertRuns

open Rehearsal (Work Result)

/-! ## Stores that refuse writes -/

namespace Store

variable {s s' : Store} {key : ObjectKey} {count : Nat}

/-- A store holds a run and will refuse some writes. -/
structure Refuses (s : Store) (key : ObjectKey) (count : Nat) : Prop where
  sound : s.Sound
  stored : (s.runs.get? key).isSome = true
  forced : s.forcedConflicts = count

theorem Refuses.read (h : s.Refuses key count) {reply : Except ClusterError Run}
    (hs : s.Serves s' (.call (.getRun key)) reply) :
    s' = s ∧ ∃ run, reply = .ok run ∧ s.runs.get? key = some run := by
  obtain ⟨stamp, hs⟩ := hs
  obtain ⟨run, hrun⟩ := Option.isSome_iff_exists.mp h.stored
  cases hs
  refine ⟨rfl, run, ?_, hrun⟩
  rw [getRun, hrun]

theorem Refuses.kept (h : s.Refuses key count) (hsound : s'.Sound)
    (hrun : s'.runs.get? key = s.runs.get? key)
    (hforced : s'.forcedConflicts = s.forcedConflicts) : s'.Refuses key count :=
  ⟨hsound, by rw [hrun]; exact h.stored, hforced.trans h.forced⟩

/-- A write under the stored version is refused as long as writes are to be refused, and accepted
after that. -/
theorem Refuses.write (h : s.Refuses key count) {run : Run} (hrun : s.runs.get? key = some run)
    {change : RunStatus → RunStatus} {reply : Except ClusterError Run}
    (hs : s.Serves s' (.call (.updateRunStatus (run.changed change))) reply) :
    s'.Refuses key (count - 1) ∧
      if count = 0 then ∃ stored, reply = .ok stored
      else reply = .error (.conflict .run key) := by
  have hkey : (run.changed change).key = key := show run.key = key from h.sound.keyed hrun
  have hsound : s'.Sound := h.sound.changes (hs.answers.rewrites.changes h.sound)
  obtain ⟨stamp, hs⟩ := hs
  have hs : s.updateRunStatus (run.changed change) = (s', reply) := hs
  have hforced := h.forced
  have hend := s.statusWrite (run.changed change)
  rw [hs] at hend
  cases hend with
  | missing hb =>
    rw [hkey, hrun] at hb
    cases hb
  | stale hb _ hv =>
    rw [hkey, hrun] at hb
    cases hb
    exact absurd rfl hv
  | forced _ hf =>
    rw [if_neg (by omega)]
    refine ⟨⟨hsound, by rw [hkey, Table.get?_insert_self]; rfl, ?_⟩, by rw [hkey]⟩
    show s.forcedConflicts - 1 = count - 1
    omega
  | accepted _ hf =>
    rw [if_pos (by omega)]
    refine ⟨⟨hsound, by rw [hkey, Table.get?_insert_self]; rfl, ?_⟩, _, rfl⟩
    show s.forcedConflicts = count - 1
    omega

end Store

namespace Site

open Operator (limit moves exchanges Alive)

variable {t t' : Site} {history : List (Site × Move)} {id : Nat}
  {key : ObjectKey} {change : RunStatus → RunStatus} {policy : RetryPolicy}

/-- Others leave a run as it is, and use up no refusal. -/
structure Leaves (key : ObjectKey) (t : Site) (_ : Move) (t' : Site) : Prop where
  run : t'.store.runs.get? key = t.store.runs.get? key
  forced : t'.store.forcedConflicts = t.store.forcedConflicts

/-- A move while the calls of a change are served and nobody else writes its run. -/
abbrev Unrivalled (id : Nat) (key : ObjectKey) : Site → Move → Site → Prop :=
  Served id (Leaves key)

/-- A change that is left alone has no rival. -/
theorem undisturbed_unrivalled {t₀ : Site} (h : Execution (Undisturbed id) t₀ history t)
    (key : ObjectKey) : Execution (Unrivalled id key) t₀ history t := by
  refine h.mono fun hs => hs.mono fun hstep hpass => ?_
  have hstore := (hpass.same hstep).1
  exact ⟨by rw [hstore], by rw [hstore]⟩

/-! ## A run that is stored -/

/-- Where a change stands while `lost` of its attempts were refused, of `forced` that the store is
to refuse. -/
inductive Contending (key : ObjectKey) (change : RunStatus → RunStatus) (policy : RetryPolicy)
    (forced : Nat) : Store → Progress → Prop
  /-- It reads the run. -/
  | reading {s : Store} {lost : Nat} (hlost : lost ≤ forced) (hlimit : lost < limit policy)
      (h : s.Refuses key (forced - lost)) :
      Contending key change policy forced s
        (.waiting (.update ⟨key, change, policy, lost + 1, .reading⟩) none)
  /-- It has been told about the run. -/
  | read {s : Store} {lost : Nat} (hlost : lost ≤ forced) (hlimit : lost < limit policy)
      (h : s.Refuses key (forced - lost)) {run : Run} (hrun : s.runs.get? key = some run) :
      Contending key change policy forced s
        (.waiting (.update ⟨key, change, policy, lost + 1, .reading⟩) (some (.ok run)))
  /-- It writes the run under the stored version. -/
  | writing {s : Store} {lost : Nat} (hlost : lost ≤ forced) (hlimit : lost < limit policy)
      (h : s.Refuses key (forced - lost)) {run : Run} (hrun : s.runs.get? key = some run) :
      Contending key change policy forced s
        (.waiting (.update ⟨key, change, policy, lost + 1, .writing (run.changed change)⟩) none)
  /-- Its write was refused. -/
  | refused {s : Store} {lost : Nat} (hlost : lost < forced) (hlimit : lost < limit policy)
      (h : s.Refuses key (forced - (lost + 1))) (run : Run) :
      Contending key change policy forced s
        (.waiting (.update ⟨key, change, policy, lost + 1, .writing run⟩)
          (some (.error (.conflict .run key))))
  /-- Its write was accepted. -/
  | accepted {s : Store} (hlimit : forced < limit policy) (h : s.Refuses key 0) (run stored : Run) :
      Contending key change policy forced s
        (.waiting (.update ⟨key, change, policy, forced + 1, .writing run⟩) (some (.ok stored)))
  /-- Its write was refused, and it draws the random part of its pause. -/
  | drawing {s : Store} {lost : Nat} (hlost : lost < forced) (hlimit : lost + 1 < limit policy)
      (h : s.Refuses key (forced - (lost + 1))) (answer : Option Double) :
      Contending key change policy forced s
        (.waiting (.update ⟨key, change, policy, lost + 1, .drawing⟩) answer)
  /-- It pauses after its write was refused. -/
  | resting {s : Store} {lost : Nat} (hlost : lost < forced) (hlimit : lost + 1 < limit policy)
      (h : s.Refuses key (forced - (lost + 1))) (wake : Instant) (answer : Option Unit) :
      Contending key change policy forced s
        (.waiting (.update ⟨key, change, policy, lost + 1, .resting wake⟩) answer)
  /-- It has panicked after its write was refused. -/
  | panicked {s : Store} {lost : Nat} (hlost : lost < forced) (hlimit : lost + 1 < limit policy)
      (h : s.Refuses key (forced - (lost + 1))) :
      Contending key change policy forced s
        (.waiting (.update ⟨key, change, policy, lost + 1, .panicked⟩) none)
  /-- It was made. -/
  | made {s : Store} (hlimit : forced < limit policy) (h : s.Refuses key 0) (stored : Run) :
      Contending key change policy forced s (.ended (.updated (.ok stored)))
  /-- It was given up. -/
  | exhausted {s : Store} (hlimit : limit policy ≤ forced)
      (h : s.Refuses key (forced - limit policy)) :
      Contending key change policy forced s (.ended (.updated (.error (.conflict .run key))))

variable {forced : Nat} {s s' : Store}

/-- A change that begins its pause rests, or it panics. -/
theorem Contending.rest {lost : Nat} (hlost : lost < forced) (hlimit : lost + 1 < limit policy)
    (h : s.Refuses key (forced - (lost + 1))) (now : Instant) (pause? : Option Duration) :
    Contending key change policy forced s
      (.waiting (.update ⟨key, change, policy, lost + 1, .rest now pause?⟩) none) := by
  cases pause? with
  | none => exact .panicked hlost hlimit h
  | some pause => exact .resting hlost hlimit h _ none

theorem Contending.receive {work : Work} {event : work.wait.Event}
    (h : Contending key change policy forced s (.waiting work none))
    (hs : s.Serves s' work.wait event) :
    Contending key change policy forced s' (.waiting work (some event)) := by
  cases h with
  | reading hlost hlimit h =>
    obtain ⟨rfl, run, rfl, hrun⟩ := h.read hs
    exact .read hlost hlimit h hrun
  | @writing lost hlost hlimit h run hrun =>
    obtain ⟨hnow, hreply⟩ := h.write hrun hs
    rw [Nat.sub_sub] at hnow
    by_cases hleft : forced - lost = 0
    · rw [if_pos hleft] at hreply
      obtain ⟨stored, rfl⟩ := hreply
      obtain rfl : lost = forced := by omega
      rw [show lost - (lost + 1) = 0 by omega] at hnow
      exact .accepted hlimit hnow _ stored
    · rw [if_neg hleft] at hreply
      subst hreply
      exact .refused (by omega) hlimit hnow _
  | drawing hlost hlimit h =>
    obtain rfl : s' = s := hs
    exact .drawing hlost hlimit h (some event)
  | resting hlost hlimit h wake =>
    obtain rfl : s' = s := hs
    exact .resting hlost hlimit h wake (some event)
  | panicked => exact event.elim

theorem Contending.resume {work : Work} {event : work.wait.Event}
    (h : Contending key change policy forced s (.waiting work (some event)))
    (cs : List Controller) (now : Instant) :
    Contending key change policy forced s (.after (work.resume cs now event).next) := by
  cases h with
  | read hlost hlimit h hrun => exact .writing hlost hlimit h hrun
  | accepted hlimit h run stored => exact .made hlimit h stored
  | @refused lost hlost hlimit h run =>
    simp only [Work.resume]
    generalize hturn : StatusUpdate.resume now ⟨key, change, policy, lost + 1, .writing run⟩
      (.error (.conflict .run key)) = turn
    cases StatusUpdate.resumes hturn with
    | overtaken _ hn => exact .drawing hlost (by rw [limit]; omega) h none
    | paused _ hn => exact .rest hlost (by rw [limit]; omega) h _ _
    | refused he =>
      have hlast : limit policy = lost + 1 := by
        have hsteps := he rfl
        rw [limit] at hlimit ⊢
        omega
      exact .exhausted (by omega) (by rw [hlast]; exact h)
  | drawing hlost hlimit h => exact .rest hlost hlimit h _ _
  | resting hlost hlimit h wake => exact .reading hlost hlimit h

/-- What others do makes no difference if they leave the run as it is. -/
theorem Contending.kept {p : Progress} (h : Contending key change policy forced s p)
    (hsound : s'.Sound) (hsame : s'.runs.get? key = s.runs.get? key)
    (hforced : s'.forcedConflicts = s.forcedConflicts) :
    Contending key change policy forced s' p := by
  have kept {count : Nat} (h : s.Refuses key count) : s'.Refuses key count :=
    h.kept hsound hsame hforced
  cases h with
  | reading hlost hlimit h => exact .reading hlost hlimit (kept h)
  | read hlost hlimit h hrun => exact .read hlost hlimit (kept h) (hsame.trans hrun)
  | writing hlost hlimit h hrun => exact .writing hlost hlimit (kept h) (hsame.trans hrun)
  | refused hlost hlimit h run => exact .refused hlost hlimit (kept h) run
  | accepted hlimit h run stored => exact .accepted hlimit (kept h) run stored
  | drawing hlost hlimit h => exact .drawing hlost hlimit (kept h) _
  | resting hlost hlimit h wake => exact .resting hlost hlimit (kept h) wake _
  | panicked hlost hlimit h => exact .panicked hlost hlimit (kept h)
  | made hlimit h stored => exact .made hlimit (kept h) stored
  | exhausted hlimit h => exact .exhausted hlimit (kept h)

theorem Contending.sound {p : Progress} (h : Contending key change policy forced s p) :
    s.Sound := by
  cases h with
  | reading _ _ h | read _ _ h | writing _ _ h | refused _ _ h | accepted _ h | drawing _ _ h
  | resting _ _ h | panicked _ _ h | made _ h | exhausted _ h => exact h.sound

/-- A change that has ended was made if there were fewer refusals than attempts, and has used up one
refusal for each attempt that was refused. -/
theorem Contending.outcome {result : Except ClusterError Run}
    (h : Contending key change policy forced s (.ended (.updated result))) :
    ((∃ stored, result = .ok stored) ↔ forced < limit policy) ∧
      s.forcedConflicts = forced - min forced (limit policy) := by
  cases h with
  | made hlimit h stored =>
    rw [h.forced]
    exact ⟨⟨fun _ => hlimit, fun _ => ⟨stored, rfl⟩⟩, by omega⟩
  | exhausted hlimit h =>
    rw [h.forced, Nat.min_eq_right hlimit]
    exact ⟨⟨fun ⟨_, he⟩ => (by cases he), fun hlt => absurd hlt (Nat.not_lt.mpr hlimit)⟩, rfl⟩

theorem contending {t₀ : Site} (h : Execution (Unrivalled id key) t₀ history t)
    (hsound : t₀.store.Sound) (hstored : (t₀.store.runs.get? key).isSome = true)
    (hstart : t₀.operator.progress? id =
      some (.waiting (.update (.start key policy change)) none)) :
    ∃ p, t.operator.progress? id = some p ∧
      Contending key change policy t₀.store.forcedConflicts t.store p := by
  have hrefuses : t₀.store.Refuses key (t₀.store.forcedConflicts - 0) := ⟨hsound, hstored, rfl⟩
  have hlimit : 0 < limit policy := by
    rw [limit]
    omega
  refine served_induction
    (P := fun s _ p => Contending key change policy t₀.store.forcedConflicts s p) h hstart
    (.reading (Nat.zero_le _) hlimit hrefuses) ?_ (fun _ _ _ _ _ hc hs => hc.receive hs)
    (fun _ cs now _ _ hc => hc.resume cs now)
  intro t m t' p hc hstep hleaves
  exact hc.kept (hc.sound.changes (hstep.changes hc.sound)) hleaves.run hleaves.forced

/-! ## A run that is not there -/

/-- Where a change stands whose run is not there. -/
inductive Missing (key : ObjectKey) (change : RunStatus → RunStatus) (policy : RetryPolicy) :
    Progress → Prop
  | reading : Missing key change policy (.waiting (.update (.start key policy change)) none)
  | read : Missing key change policy (.waiting (.update (.start key policy change))
      (some (.error (.notFound .run key))))
  | ended : Missing key change policy (.ended (.updated (.error (.notFound .run key))))

/-- Where a change stands whose run is not there. It uses up no refusal. -/
theorem missing {t₀ : Site} (h : Execution (Unrivalled id key) t₀ history t)
    (hmissing : t₀.store.runs.get? key = none)
    (hstart : t₀.operator.progress? id =
      some (.waiting (.update (.start key policy change)) none)) :
    ∃ p, t.operator.progress? id = some p ∧ Missing key change policy p ∧
      t.store.runs.get? key = none ∧ t.store.forcedConflicts = t₀.store.forcedConflicts := by
  refine served_induction
    (P := fun s _ p => Missing key change policy p ∧ s.runs.get? key = none ∧
      s.forcedConflicts = t₀.store.forcedConflicts) h hstart ⟨.reading, hmissing, rfl⟩ ?_ ?_ ?_
  · rintro t m t' p ⟨hm, hnone, hforced⟩ _ hleaves
    exact ⟨hm, hleaves.run.trans hnone, hleaves.forced.trans hforced⟩
  · rintro s s' cs work event ⟨hm, hnone, hforced⟩ hs
    cases hm with
    | reading =>
      obtain ⟨stamp, hs⟩ := hs
      simp only [Store.perform, Store.getRun, StatusUpdate.start, hnone] at hs
      cases hs
      exact ⟨.read, hnone, hforced⟩
  · rintro s cs now work event ⟨hm, hsame⟩
    cases hm with
    | read => exact ⟨.ended, hsame⟩

/-! ## Both together -/

/-- A change that has been going on for a while comes to its end if it is left alone from then on, or
it panics. -/
theorem updates_end {t₀ : Site} {others : Site → Move → Site → Prop}
    (h : Execution (Served id others) t₀ history t)
    (hstart : t₀.operator.progress? id =
      some (.waiting (.update (.start key policy change)) none)) :
    ∃ later t', Execution (Undisturbed id) t later t' ∧
      ((∃ result, t'.operator.progress? id = some (.ended (.updated result))) ∨
        t'.operator.HasPanicked id) := by
  obtain ⟨p, hp, _⟩ := Operator.trying (served_operator h) hstart
  have hbound (later : List (Site × Move)) (t' : Site)
      (hlater : Execution (Undisturbed id) t later t') :
      moves id (operatorHistory later) ≤ 8 * limit policy := by
    have hmoves :=
      (Operator.tried ((served_operator h).trans (served_operator hlater)) hstart).2.1
    rw [Operator.moves_append] at hmoves
    omega
  obtain ⟨later, t', hlater, ⟨result, hend⟩ | hpanicked⟩ := comes_to_end hp hbound
  · rcases (Operator.tried ((served_operator h).trans (served_operator hlater)) hstart).2.2 with
      ⟨result, hresult, _⟩ | ⟨hpanicked, _⟩ | hopen
    · exact ⟨later, t', hlater, .inl ⟨result, hresult⟩⟩
    · exact ⟨later, t', hlater, .inr hpanicked⟩
    · exact absurd hopen (Operator.not_alive hend)
  · exact ⟨later, t', hlater, .inr hpanicked⟩

/-- A change whose run is stored panics only if its policy lacks a pause that it may come to need. -/
theorem not_steady {t₀ : Site} (h : Execution (Unrivalled id key) t₀ history t)
    (hsound : t₀.store.Sound)
    (hstart : t₀.operator.progress? id =
      some (.waiting (.update (.start key policy change)) none))
    (hpanicked : t.operator.HasPanicked id) :
    (t₀.store.runs.get? key).isSome ∧
      ¬ policy.Steady (min (t₀.store.forcedConflicts + 1) (limit policy)) := by
  obtain ⟨p, hp, htrying, _⟩ := Operator.trying (served_operator h) hstart
  obtain ⟨work, hw, hwait⟩ := hpanicked
  rw [hp] at hw
  cases hw
  by_cases hstored : (t₀.store.runs.get? key).isSome = true
  · refine ⟨hstored, fun hsteady => ?_⟩
    obtain ⟨q, hq, hc⟩ := contending h hsound hstored hstart
    rw [hp] at hq
    cases hq
    generalize exchanges id (operatorHistory history) = log at htrying
    generalize t₀.store.forcedConflicts = forced at hc hsteady
    cases htrying with
    | panicked lost l hlost hlimit hl hpause =>
      cases hc with
      | panicked hforced =>
        have hsome := hsteady (lost.length + 1) l.part (Nat.succ_pos _) (by omega) hl.drawn
        rw [hpause] at hsome
        cases hsome
    | reading | writing | drawing | resting => cases hwait
  · obtain ⟨q, hq, hm, _⟩ := missing h (Option.not_isSome_iff_eq_none.mp hstored) hstart
    rw [hp] at hq
    cases hq
    cases hm
    cases hwait

/-- A change of a status makes a bounded number of attempts, however it is answered. It ends after
them, or panics because its policy has no pause after one. If its calls are served and nobody else
writes its run, then it is made exactly if fewer writes are refused than it has attempts, unless it
panics. -/
theorem updates_bounded {c₀ : Operator}
    (hstart : c₀.progress? id = some (.waiting (.update (.start key policy change)) none)) :
    (∀ {c : Operator} {history : List (Operator × Move)}, Execution Operator.Step c₀ history c →
      (exchanges id history).countP Exchange.isWrite ≤ limit policy ∧
        moves id history < 8 * limit policy ∧
        ((∃ result, c.progress? id = some (.ended (.updated result)) ∧
          Tried key change policy (exchanges id history) result) ∨
          (c.HasPanicked id ∧ Broken key change policy (exchanges id history)) ∨ c.Alive id)) ∧
    ∀ {s : Store} {t : Site} {history : List (Site × Move)}, s.Sound →
      Execution (Unrivalled id key) ⟨c₀, s⟩ history t →
      (∃ later t', Execution (Undisturbed id) t later t' ∧
        ((∃ result, t'.operator.progress? id = some (.ended (.updated result))) ∨
          (t'.operator.HasPanicked id ∧ (s.runs.get? key).isSome ∧
            ¬ policy.Steady (min (s.forcedConflicts + 1) (limit policy))))) ∧
      ∀ result, t.operator.progress? id = some (.ended (.updated result)) →
        if (s.runs.get? key).isSome then
          ((∃ stored, result = .ok stored) ↔ s.forcedConflicts < limit policy) ∧
            t.store.forcedConflicts = s.forcedConflicts - min s.forcedConflicts (limit policy)
        else
          result = .error (.notFound .run key) ∧ t.store.forcedConflicts = s.forcedConflicts := by
  refine ⟨fun h => Operator.tried h hstart, fun {s t history} hsound h =>
    ⟨?_, fun result hend => ?_⟩⟩
  · obtain ⟨later, t', hlater, hend | hpanicked⟩ := updates_end h hstart
    · exact ⟨later, t', hlater, .inl hend⟩
    · have hall := h.trans (undisturbed_unrivalled hlater key)
      exact ⟨later, t', hlater, .inr ⟨hpanicked, not_steady hall hsound hstart hpanicked⟩⟩
  · split
    · rename_i hstored
      obtain ⟨p, hp, hc⟩ := contending h hsound hstored hstart
      rw [hend] at hp
      cases hp
      exact hc.outcome
    · rename_i hmissing
      obtain ⟨p, hp, hm, _, hforced⟩ := missing h (Option.not_isSome_iff_eq_none.mp hmissing) hstart
      rw [hend] at hp
      cases hp
      cases hm
      exact ⟨rfl, hforced⟩

/-- Three attempts, with pauses that have no random part. -/
def plain : RetryPolicy := { steps := 3, jitter := ⟨0⟩ }

/-- A change with three attempts at a store that refuses two writes. -/
def refusing : List Act :=
  [.outside (.applyRun .epoch (Sample.run "first")), .outside (.forceConflicts 2),
    .update Sample.key plain fun status => { status with phase := .finished }]

/-- Three attempts are enough where two writes are refused. -/
theorem refusing_made :
    let t := (play refusing).2
    t.operator.progress? 0 = some (.waiting (.update (.start Sample.key plain
      fun status => { status with phase := .finished })) none) ∧
    ∃ history t' stored, Execution (Undisturbed 0) t history t' ∧
      t'.operator.progress? 0 = some (.ended (.updated (.ok stored))) ∧
      t'.store.forcedConflicts = 0 ∧
      (exchanges 0 (operatorHistory history)).countP Exchange.isWrite ≤ 3 := by
  have hstart : (play refusing).2.operator.progress? 0 = some (.waiting (.update
      (.start Sample.key plain fun status => { status with phase := .finished })) none) :=
    rfl
  have hsound : (play refusing).2.store.Sound := sound (play_execution refusing)
  obtain ⟨hany, hmemory⟩ := updates_bounded hstart
  obtain ⟨⟨later, t', hlater, hend⟩, _⟩ := hmemory hsound .start
  have hsteady : plain.Steady (min ((play refusing).2.store.forcedConflicts + 1) (limit plain)) :=
    RetryPolicy.steady_of_atMostZero (by decide) _
  obtain ⟨result, hend⟩ := hend.resolve_right fun ⟨_, _, hnot⟩ => hnot hsteady
  have houtcome := (hmemory hsound (undisturbed_unrivalled hlater _)).2 result hend
  rw [if_pos (show ((play refusing).2.store.runs.get? Sample.key).isSome = true by decide +kernel)]
    at houtcome
  obtain ⟨hok, hforced⟩ := houtcome
  have hcount : (play refusing).2.store.forcedConflicts = 2 := by decide +kernel
  rw [hcount] at hok hforced
  obtain ⟨stored, rfl⟩ := hok.mpr (by decide)
  exact ⟨hstart, later, t', stored, hlater, hend, hforced, (hany (served_operator hlater)).1⟩

/-- A change with three attempts at a store that refuses one write. The fraction of its pauses that
is left to chance is no number. -/
def unsteady : List Act :=
  [.outside (.applyRun .epoch (Sample.run "first")), .outside (.forceConflicts 1),
    .update Sample.key { steps := 3, jitter := .notANumber } fun status =>
      { status with phase := .finished },
    .serve 0 .epoch, .resume 0, .serve 0 .epoch, .resume 0]

/-- Three attempts are not enough where one write is refused: after that one the change waits for
good. -/
theorem not_always_made :
    let t := (play unsteady).2
    (t.store.runs.get? Sample.key).isSome ∧ t.store.forcedConflicts = 0 ∧
    ∀ {history : List (Site × Move)} {t' : Site}, Execution Site.Step t history t' →
      ∀ result, t'.operator.progress? 0 ≠ some (.ended result) := by
  intro t
  refine ⟨by decide +kernel, by decide +kernel, fun {history t'} h result hend => ?_⟩
  have hpanicked : t.operator.HasPanicked 0 := ⟨_, rfl, by decide +kernel⟩
  obtain ⟨⟨work, hwaits, -⟩, -⟩ := hpanicked.rest (h.map Site.operator fun hs => hs.1)
  rw [hend] at hwaits
  cases hwaits

end Site

end CertRuns
