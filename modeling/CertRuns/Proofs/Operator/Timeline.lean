import CertRuns.Proofs.Operator.Grounds
import CertRuns.Proofs.Operator.Liveness

/-!
# The timeline of a wait

A wait looks at its pod when it starts and then once a period. If time never passes a point at which
it can go on, then its looks come at the exact multiples of the period, the first conclusive one
ends it, and otherwise it ends at the very end of its time. A wait whose time ends later than the
clock can tell panics instead, and looks at nothing.

* `Decides` : what a conclusive reply ends a wait with; `CompletionWait.afterRead_cases`;
* `looks`, `lastMoved` : the looks of a task with their times, and when it moved last;
* `Pace` : the beats and the deadline of a wait; `Pacing` : where it stands between two moves;
  `Paced` : that and its looks so far, kept by each kind of move; `paced` : every wait keeps its pace;
* `Timeline` : the looks of a wait, and where it stands; `timeline` : a wait has one if the clock can
  tell its deadline; `not_always_looking` : one that has none.
-/

namespace CertRuns

open Rehearsal (Work Result)

/-! ## Conclusive replies -/

/-- What a conclusive reply about a pod ends a wait with. -/
inductive Decides : Except ClusterError Pod → Except MonitorError Int32 → Prop
  | succeeded {pod : Pod} (hp : pod.phase = .succeeded) : Decides (.ok pod) (.ok 0)
  | exited {pod : Pod} {code : Int32} (hp : pod.phase = .failed) (hc : pod.suiteCode? = some code) :
      Decides (.ok pod) (.ok code)
  | unreported {pod : Pod} (hp : pod.phase = .failed) (hs : pod.suiteStatus? = none) :
      Decides (.ok pod) (.error (.missingExitStatus pod.key))
  | unterminated {pod : Pod} {status : ContainerStatus} (hp : pod.phase = .failed)
      (hs : pod.suiteStatus? = some status) (ht : status.state.terminated = none) :
      Decides (.ok pod) (.error (.notTerminated pod.key))
  | gone {e : ClusterError} (he : e.isNotFound = true) : Decides (.error e) (.error (.cluster e))

theorem suiteExitCode_decides {pod : Pod} (hp : pod.phase = .failed) :
    Decides (.ok pod) (suiteExitCode pod) := by
  unfold suiteExitCode
  split
  · rename_i hstatus
    exact .unreported hp hstatus
  · rename_i status hstatus
    have hstatus : pod.suiteStatus? = some status := hstatus
    split
    · rename_i hstate
      exact .unterminated hp hstatus hstate
    · rename_i t hstate
      refine .exited hp ?_
      rw [Pod.suiteCode?, hstatus, Option.bind_some, hstate, Option.map_some]

theorem CompletionWait.afterRead_cases (w : CompletionWait) (reply : Except ClusterError Pod) :
    (inconclusive reply = true ∧ w.afterRead reply = .going { w with stage := .resting }) ∨
      ∃ result, inconclusive reply = false ∧ Decides reply result ∧
        w.afterRead reply = .ended result := by
  cases reply with
  | error e =>
    simp only [afterRead, inconclusive]
    cases he : e.isNotFound with
    | true => exact .inr ⟨_, rfl, .gone he, if_pos rfl⟩
    | false => exact .inl ⟨rfl, if_neg Bool.false_ne_true⟩
  | ok pod =>
    simp only [afterRead, inconclusive]
    cases hp : pod.phase with
    | succeeded => exact .inr ⟨_, rfl, .succeeded hp, rfl⟩
    | failed => exact .inr ⟨_, rfl, suiteExitCode_decides hp, rfl⟩
    | _ => exact .inl ⟨rfl, rfl⟩

section
variable {w next : CompletionWait} {now : Instant} {event : w.wait.Event}
  {result : Except MonitorError Int32}

theorem completion_going (cs : List Controller) (h : w.resume now event = .going next) :
    ((Work.completion w).resume cs now event).next = .going (.completion next) := by
  simp only [Work.resume, h]

theorem completion_ended (cs : List Controller) (h : w.resume now event = .ended result) :
    ((Work.completion w).resume cs now event).next = .ended (.waited result) := by
  simp only [Work.resume, h]

end

namespace Operator

variable {c₀ c c' : Operator} {m : Move} {history : List (Operator × Move)} {id : Nat}
  {pod : ObjectKey}

/-! ## What a task has done -/

/-- The looks of a task at a pod, in order, each with its time and its reply. -/
def looks (id : Nat) (pod : ObjectKey) (history : List (Operator × Move)) :
    List (Instant × Except ClusterError Pod) :=
  ((told id (fun work event => work.wait.reading? pod event) history).map
    fun (c, reply) => (c.clock, reply)).reverse

def lastMoved (id : Nat) (history : List (Operator × Move)) : Option Instant :=
  (history.find? fun moment => moment.2.subject? == some id).map (·.1.clock)

theorem looks_cons (h : m.told? id (fun work event => work.wait.reading? pod event) = none) :
    looks id pod ((c, m) :: history) = looks id pod history := by
  rw [looks, told_cons, h]
  rfl

theorem looks_receive {work : Work} {event : work.wait.Event} {reply : Except ClusterError Pod}
    (h : work.wait.reading? pod event = some reply) :
    looks id pod ((c, .receive id work event) :: history) =
      looks id pod history ++ [(c.clock, reply)] := by
  rw [looks, told_cons, Move.told?_receive, h]
  simp [looks]

theorem lastMoved_other (hm : m.subject? ≠ some id) :
    lastMoved id ((c, m) :: history) = lastMoved id history := by
  rw [lastMoved, List.find?_cons_of_neg (by simpa using hm)]
  rfl

theorem lastMoved_subject (hm : m.subject? = some id) :
    lastMoved id ((c, m) :: history) = some c.clock := by
  rw [lastMoved, List.find?_cons_of_pos (by simp [hm])]
  rfl

end Operator

/-! ## The pace of a wait -/

/-- A wait from its start on. -/
structure Pace where
  start : Instant
  pod : ObjectKey
  period : Duration
  limit : Duration
  token : Token

namespace Pace

variable (p : Pace)

/-- A multiple of the period, counted from the start. -/
def multiple (k : Nat) : Instant := ⟨p.start.nanos + k * p.period.nanos⟩

/-- When the look with a number is due, counted from zero: a period after the one before. -/
def beat : Nat → Instant
  | 0 => p.start
  | k + 1 => (beat k).after p.period

/-- The least time from one look to the next. -/
def stride : Nat := min p.period.nanos Instant.longSpan.nanos

/-- When the time of the wait is over. -/
def deadline : Instant := p.start.add p.limit

/-- The wait before the look with a number. -/
def wait (k : Nat) (stage : CompletionWait.Stage) : CompletionWait :=
  ⟨p.pod, p.limit, p.deadline, p.token, ⟨p.period, p.beat k⟩, stage⟩

/-- The replies to the looks of a wait, each with the time at which the look is due. -/
def timed (replies : List (Except ClusterError Pod)) : List (Instant × Except ClusterError Pod) :=
  replies.mapIdx fun k reply => (p.beat k, reply)

theorem beat_zero : p.beat 0 = p.start := rfl

theorem beat_succ (k : Nat) : p.beat (k + 1) = (p.beat k).after p.period := rfl

/-- The looks come at the multiples of the period, as far as the clock can tell these. -/
theorem beat_eq {k : Nat} (h : (p.multiple k).Kept) : p.beat k = p.multiple k := by
  induction k with
  | zero => simp [multiple, beat_zero]
  | succ k ih =>
    have hsum : (p.multiple k).add p.period = p.multiple (k + 1) := by
      simp only [multiple, Instant.add, Nat.add_mul, Nat.one_mul, Nat.add_assoc]
    have hbefore : (p.multiple k).Kept :=
      Nat.lt_of_le_of_lt (hsum ▸ Nat.le_add_right _ p.period.nanos) h
    rw [beat_succ, ih hbefore, Instant.after, hsum, if_pos h]

theorem beat_add_stride_le (k : Nat) :
    (p.beat k).nanos + p.stride ≤ (p.beat (k + 1)).nanos := by
  rw [beat_succ, Instant.after, stride]
  split <;> simp only [Instant.add] <;> omega

theorem start_add_le (k : Nat) : p.start.nanos + k * p.stride ≤ (p.beat k).nanos := by
  induction k with
  | zero => simp [beat_zero]
  | succ k ih =>
    have hnext := p.beat_add_stride_le k
    rw [Nat.succ_mul]
    omega

/-- The next look comes within a period, or the deadline does. -/
theorem beat_succ_le (k : Nat) (hkept : p.deadline.Kept) :
    min (p.beat (k + 1)).nanos p.deadline.nanos ≤ (p.beat k).nanos + p.period.nanos := by
  rw [beat_succ, Instant.after]
  split
  · exact Nat.min_le_left _ _
  · rename_i hlater
    unfold Instant.Kept at hkept hlater
    simp only [Instant.add] at hlater ⊢
    omega

theorem wait_zero (hkept : p.deadline.Kept) (hperiod : 0 < p.period.nanos) :
    .start p.start p.pod p.period p.limit p.token = p.wait 0 .resting := by
  have hfirst : CompletionWait.Stage.first (p.start.add p.limit) p.period = .resting :=
    CompletionWait.Stage.first_resting ⟨hkept, by omega⟩
  rw [CompletionWait.start, hfirst]
  rfl

/-- A tick that is noticed when it is due moves the next one by a period. -/
theorem advance_beat (k : Nat) :
    (Ticker.mk p.period (p.beat k)).advance (p.beat k) = ⟨p.period, p.beat (k + 1)⟩ := by
  have hontime : ¬ ((p.beat k).add Ticker.tolerance).nanos < (p.beat k).nanos :=
    Nat.not_lt.mpr (Nat.le_add_right _ _)
  rw [Ticker.advance, if_neg hontime, beat_succ]

theorem timed_concat (replies : List (Except ClusterError Pod)) (reply : Except ClusterError Pod) :
    p.timed (replies ++ [reply]) = p.timed replies ++ [(p.beat replies.length, reply)] :=
  List.mapIdx_concat

end Pace

/-- How a wait ends at `moved` after the inconclusive replies `earlier`: with a conclusive one, or
because its time is over. -/
inductive Returns (p : Pace) (earlier : List (Except ClusterError Pod)) (moved : Instant) :
    Option (Except ClusterError Pod) → Except MonitorError Int32 → Prop
  | decided {reply : Except ClusterError Pod} {result : Except MonitorError Int32}
      (hd : Decides reply result) (hmoved : moved = p.beat earlier.length) :
      Returns p earlier moved (some reply) result
  | timedOut (hmoved : moved = p.deadline)
      (hdue : p.deadline.nanos ≤ (p.beat earlier.length).nanos) :
      Returns p earlier moved none (.error (.timeout p.pod p.limit))

/-- Where a wait stands after some moves, with the inconclusive replies `earlier` and perhaps a last
one that has not been looked at or is conclusive. -/
inductive Pacing (p : Pace) (moved : Option Instant) (now : Instant)
    (earlier : List (Except ClusterError Pod)) :
    Nat → Option (Except ClusterError Pod) → Progress → Prop
  /-- It pauses until the next look. -/
  | resting (hbeat : now.nanos ≤ (p.beat earlier.length).nanos)
      (hopen : now.nanos ≤ p.deadline.nanos) :
      Pacing p moved now earlier (4 * earlier.length) none
        (.waiting (.completion (p.wait earlier.length .resting)) none)
  /-- The next look is due. -/
  | ticked (hbeat : now = p.beat earlier.length) (hopen : now.nanos ≤ p.deadline.nanos) :
      Pacing p moved now earlier (4 * earlier.length + 1) none
        (.waiting (.completion (p.wait earlier.length .resting)) (some .tick))
  /-- Its time is over. -/
  | expired (hover : now = p.deadline) (hdue : now.nanos ≤ (p.beat earlier.length).nanos) :
      Pacing p moved now earlier (4 * earlier.length + 1) none
        (.waiting (.completion (p.wait earlier.length .resting)) (some .deadline))
  /-- It looks. -/
  | reading (hbeat : now = p.beat earlier.length) (hopen : now.nanos ≤ p.deadline.nanos) :
      Pacing p moved now earlier (4 * earlier.length + 2) none
        (.waiting (.completion (p.wait (earlier.length + 1) .reading)) none)
  /-- It has looked. -/
  | read (hbeat : now = p.beat earlier.length) (hopen : now.nanos ≤ p.deadline.nanos)
      (reply : Except ClusterError Pod) :
      Pacing p moved now earlier (4 * earlier.length + 3) (some reply)
        (.waiting (.completion (p.wait (earlier.length + 1) .reading)) (some reply))
  /-- It has ended. -/
  | ended {time : Instant} {last : Option (Except ClusterError Pod)}
      {result : Except MonitorError Int32} {count : Nat} (hmoved : moved = some time)
      (hr : Returns p earlier time last result)
      (hcount : count ≤ 4 * (earlier ++ last.toList).length + 2) :
      Pacing p moved now earlier count last (.ended (.waited result))

namespace Pacing

variable {p : Pace} {moved : Option Instant} {now : Instant}
  {earlier : List (Except ClusterError Pod)} {last : Option (Except ClusterError Pod)} {count : Nat}

/-- While a wait can not go on, time passes. -/
theorem pass {progress : Progress} (h : Pacing p moved now earlier count last progress)
    {time : Instant} (hlasts : ∀ work answer, progress = .waiting work answer →
      answer = none ∧ work.wait.lasts time) : Pacing p moved time earlier count last progress := by
  cases h with
  | resting hbeat hopen =>
    obtain ⟨hdeadline, htick⟩ := (hlasts _ _ rfl).2
    exact .resting htick (hdeadline _ rfl)
  | ticked | expired | read => cases (hlasts _ _ rfl).1
  | reading => exact (hlasts _ _ rfl).2.elim
  | ended hmoved hr hcount => exact .ended hmoved hr hcount

/-- A wait that is given what it waits for. A look is made on the beat, and before the deadline. -/
theorem receive {c : Operator} {work : Work} {event : work.wait.Event}
    (h : Pacing p moved c.clock earlier count last (.waiting work none))
    (ha : c.Admits work work.wait event) (htoken : p.token ∉ c.raised) (moved' : Option Instant) :
    last = none ∧ Pacing p moved' c.clock earlier (count + 1) (work.wait.reading? p.pod event)
      (.waiting work (some event)) ∧
      ∀ reply, work.wait.reading? p.pod event = some reply →
        c.clock = p.beat earlier.length ∧ c.clock.nanos ≤ p.deadline.nanos := by
  cases h with
  | resting hbeat hopen =>
    refine ⟨rfl, ?_, fun _ hr => by cases hr⟩
    cases event with
    | cancelled =>
      have hraised : c.raised.contains p.token = true := ha
      exact absurd (List.contains_iff_mem.mp hraised) htoken
    | deadline =>
      obtain ⟨limit, hlimit, hdue⟩ := ha
      cases hlimit
      refine .expired ?_ hbeat
      exact congrArg Instant.mk (Nat.le_antisymm hopen hdue)
    | tick =>
      have hdue : (p.beat earlier.length).nanos ≤ c.clock.nanos := ha
      refine .ticked ?_ hopen
      exact congrArg Instant.mk (Nat.le_antisymm hbeat hdue)
  | reading hbeat hopen =>
    have hreply : Wait.reading? p.pod (.call (.getPod p.pod)) event = some event := if_pos rfl
    refine ⟨rfl, ?_, fun _ _ => ⟨hbeat, hopen⟩⟩
    rw [show Wait.reading? p.pod _ event = some event from hreply]
    exact .read hbeat hopen event

/-- A wait that goes on. An inconclusive reply joins the earlier ones. -/
theorem resume {work : Work} {event : work.wait.Event}
    (h : Pacing p moved now earlier count last (.waiting work (some event)))
    (cs : List Controller) :
    ∃ earlier' last', earlier' ++ last'.toList = earlier ++ last.toList ∧
      (∀ reply ∈ earlier', reply ∈ earlier ∨ inconclusive reply = true) ∧
      Pacing p (some now) now earlier' (count + 1) last' (.after (work.resume cs now event).next) := by
  cases h with
  | ticked hbeat hopen =>
    refine ⟨earlier, none, rfl, fun reply => .inl, ?_⟩
    have hgoes : (p.wait earlier.length .resting).resume now .tick =
        .going (p.wait (earlier.length + 1) .reading) := by
      simp only [Pace.wait, CompletionWait.resume, CompletionWait.afterPause, hbeat, p.advance_beat]
    rw [completion_going cs hgoes]
    exact .reading hbeat hopen
  | expired hover hdue =>
    refine ⟨earlier, none, rfl, fun reply => .inl, ?_⟩
    have hlength : (earlier ++ (none : Option (Except ClusterError Pod)).toList).length =
        earlier.length := by simp
    exact .ended rfl (.timedOut hover (hover ▸ hdue)) (by omega)
  | read hbeat hopen reply =>
    have hresume : (p.wait (earlier.length + 1) .reading).resume now reply =
        (p.wait (earlier.length + 1) .reading).afterRead reply := rfl
    rcases (p.wait (earlier.length + 1) .reading).afterRead_cases reply with
      ⟨hopenreply, hgoes⟩ | ⟨result, _, hdecides, hends⟩
    · refine ⟨earlier ++ [reply], none, by simp, fun r hr => ?_, ?_⟩
      · rcases List.mem_append.mp hr with hr | hr
        · exact .inl hr
        · rw [List.mem_singleton.mp hr]
          exact .inr hopenreply
      · rw [completion_going cs (hresume.trans hgoes)]
        have hlength : (earlier ++ [reply]).length = earlier.length + 1 := by simp
        have hbefore : now.nanos ≤ (p.beat (earlier ++ [reply]).length).nanos := by
          rw [hlength, hbeat]
          exact Nat.le_trans (Nat.le_add_right _ _) (p.beat_add_stride_le _)
        have hrest := @Pacing.resting p (some now) now (earlier ++ [reply]) hbefore hopen
        rw [hlength] at hrest
        exact hrest
    · refine ⟨earlier, some reply, rfl, fun r => .inl, ?_⟩
      rw [completion_ended cs (hresume.trans hends)]
      refine .ended rfl (.decided hdecides hbeat) ?_
      rw [Option.toList_some, List.length_append, List.length_singleton]
      omega

/-- A wait makes four moves for each look, and two at its end. -/
theorem count_le {progress : Progress} (h : Pacing p moved now earlier count last progress) :
    count ≤ 4 * (earlier ++ last.toList).length + 2 := by
  cases h with
  | resting | ticked | expired | reading =>
    have hlength : (earlier ++ (none : Option (Except ClusterError Pod)).toList).length =
        earlier.length := by simp
    omega
  | read =>
    rw [Option.toList_some, List.length_append, List.length_singleton]
    omega
  | ended _ _ hcount => exact hcount

/-- A wait that has not ended has missed neither its next look nor its deadline. -/
theorem ahead {work : Work} {answer : Option work.wait.Event}
    (h : Pacing p moved now earlier count last (.waiting work answer)) :
    now.nanos ≤ (p.beat earlier.length).nanos ∧ now.nanos ≤ p.deadline.nanos := by
  cases h with
  | resting hbeat hopen => exact ⟨hbeat, hopen⟩
  | expired hover hdue => exact ⟨hdue, Nat.le_of_eq (congrArg Instant.nanos hover)⟩
  | ticked hbeat hopen | reading hbeat hopen | read hbeat hopen =>
    exact ⟨Nat.le_of_eq (congrArg Instant.nanos hbeat), hopen⟩

theorem wait_ne_never {work : Work} {answer : Option work.wait.Event}
    (h : Pacing p moved now earlier count last (.waiting work answer)) : work.wait ≠ .never := by
  cases h with
  | resting | ticked | expired | reading | read => nofun

theorem returns {result : Result} (h : Pacing p moved now earlier count last (.ended result)) :
    ∃ time waited, result = .waited waited ∧ moved = some time ∧
      Returns p earlier time last waited := by
  cases h with
  | ended hmoved hr hcount => exact ⟨_, _, rfl, hmoved, hr⟩

end Pacing

namespace Pace

variable {p : Pace} {earlier : List (Except ClusterError Pod)}
  {last : Option (Except ClusterError Pod)}

/-- The replies to looks that were all made in time are few. -/
theorem length_le {replies : List (Except ClusterError Pod)} (hperiod : 0 < p.period.nanos)
    (hopen : ∀ look ∈ p.timed replies, look.1.nanos ≤ p.deadline.nanos) :
    replies.length ≤ p.limit.nanos / p.stride + 1 := by
  have hstride : 0 < p.stride := Nat.lt_min.mpr ⟨hperiod, by decide⟩
  rcases List.eq_nil_or_concat replies with rfl | ⟨init, reply, hsplit⟩
  · exact Nat.zero_le _
  · rw [List.concat_eq_append] at hsplit
    subst hsplit
    rw [timed_concat] at hopen
    have hlast := hopen _ (List.mem_append_right _ (List.mem_singleton.mpr rfl))
    have hspan : init.length * p.stride ≤ p.limit.nanos :=
      Nat.le_of_add_le_add_left (Nat.le_trans (p.start_add_le init.length) hlast)
    rw [List.length_append, List.length_singleton]
    exact Nat.succ_le_succ ((Nat.le_div_iff_mul_le hstride).mpr hspan)

/-- Once all looks are conclusive, the next beat is less than a period away, or the deadline is. -/
theorem beat_lt (hkept : p.deadline.Kept) (hperiod : 0 < p.period.nanos)
    (hopen : ∀ reply ∈ earlier, inconclusive reply = true) {time : Instant}
    (hstart : p.start.nanos ≤ time.nanos)
    (hconclusive : ∀ look ∈ p.timed (earlier ++ last.toList), time.nanos ≤ look.1.nanos →
      inconclusive look.2 = false) :
    min (p.beat earlier.length).nanos p.deadline.nanos < time.nanos + p.period.nanos := by
  rcases List.eq_nil_or_concat earlier with rfl | ⟨init, reply, hsplit⟩
  · rw [List.length_nil, beat_zero]
    omega
  · rw [List.concat_eq_append] at hsplit
    subst hsplit
    have hlook : (p.beat init.length, reply) ∈ p.timed (init ++ [reply] ++ last.toList) := by
      rw [timed, List.mem_mapIdx]
      refine ⟨init.length, by simp, ?_⟩
      simp
    have hreply := hopen reply (List.mem_append_right _ (List.mem_singleton.mpr rfl))
    have hbefore : (p.beat init.length).nanos < time.nanos := by
      refine Nat.lt_of_not_le fun hle => ?_
      have hconcluded := hconclusive _ hlook hle
      rw [hreply] at hconcluded
      cases hconcluded
    have hnext := p.beat_succ_le init.length hkept
    rw [List.length_append, List.length_singleton]
    omega

end Pace

namespace Operator

variable {c₀ c c' : Operator} {m : Move} {history : List (Operator × Move)} {id : Nat} {p : Pace}

/-- A wait panics at its start if the clock cannot tell its deadline. -/
theorem hasPanicked_start (hlate : ¬ p.deadline.Kept)
    (hstart : c.progress? id = some (.waiting (.completion
      (.start p.start p.pod p.period p.limit p.token)) none)) : c.HasPanicked id := by
  have hnever : (CompletionWait.start p.start p.pod p.period p.limit p.token).wait = .never :=
    CompletionWait.start_wait_eq_never.mpr fun h => hlate h.1
  exact ⟨_, hstart, Work.hasPanicked_iff.mpr hnever⟩

/-- The looks of a wait, and where it stands after the inconclusive replies `earlier` and perhaps a
last one. -/
structure Timeline (p : Pace) (id : Nat) (history : List (Operator × Move)) (c : Operator)
    (earlier : List (Except ClusterError Pod)) (last : Option (Except ClusterError Pod)) : Prop where
  /-- Its looks come on the beat. -/
  timed : looks id p.pod history = p.timed (earlier ++ last.toList)
  passed : ∀ reply ∈ earlier, inconclusive reply = true
  /-- None comes after the deadline. -/
  intime : ∀ look ∈ looks id p.pod history, look.1.nanos ≤ p.deadline.nanos
  few : moves id history ≤ 4 * (p.limit.nanos / p.stride + 1) + 2
  /-- It can be taken further, and neither the deadline nor a look is overdue; or it has ended. -/
  stands : (c.Alive id ∧ c.clock.nanos ≤ (p.beat earlier.length).nanos ∧
      c.clock.nanos ≤ p.deadline.nanos) ∨
    ∃ time result, c.progress? id = some (.ended (.waited result)) ∧
      lastMoved id history = some time ∧ Returns p earlier time last result
  /-- A pod that has come to its end is noticed within a period. -/
  detects : ∀ time : Instant, p.start.nanos ≤ time.nanos →
    (∀ look ∈ looks id p.pod history, time.nanos ≤ look.1.nanos → inconclusive look.2 = false) →
    min (p.beat earlier.length).nanos p.deadline.nanos < time.nanos + p.period.nanos

/-- The clock moves only when time passes. -/
theorem Step.clock_eq (h : c.Step m c') (hm : ∀ time, m ≠ .pass time) : c'.clock = c.clock := by
  obtain ⟨_, rfl⟩ := h
  cases m with
  | pass time => exact absurd rfl (hm time)
  | _ => rfl

/-- The looks of a wait so far, and where it stands after them. -/
structure Paced (p : Pace) (id : Nat) (history : List (Operator × Move)) (c : Operator)
    (progress : Progress) (earlier : List (Except ClusterError Pod))
    (last : Option (Except ClusterError Pod)) : Prop where
  timed : looks id p.pod history = p.timed (earlier ++ last.toList)
  passed : ∀ reply ∈ earlier, inconclusive reply = true
  intime : ∀ look ∈ looks id p.pod history, look.1.nanos ≤ p.deadline.nanos
  stands : Pacing p (lastMoved id history) c.clock earlier (moves id history) last progress

namespace Paced

variable {earlier : List (Except ClusterError Pod)} {last : Option (Except ClusterError Pod)}

theorem start (hclock : c.clock = p.start) (hkept : p.deadline.Kept)
    (hperiod : 0 < p.period.nanos) :
    Paced p id [] c (.waiting (.completion
      (.start p.start p.pod p.period p.limit p.token)) none) [] none := by
  refine ⟨rfl, List.forall_mem_nil _, List.forall_mem_nil _, ?_⟩
  rw [hclock, p.wait_zero hkept hperiod]
  exact .resting (Nat.le_refl _) (Nat.le_add_right _ _)

/-- A move of another task, or time that passes. -/
theorem other {progress : Progress} (h : Paced p id history c progress earlier last)
    (hstep : c.Step m c') (hp : c.progress? id = some progress) (hm : m.subject? ≠ some id)
    (hprompt : prompt id (c, m)) : Paced p id ((c, m) :: history) c' progress earlier last := by
  have hother : ∀ work event, m ≠ .receive id work event := fun _ _ he => hm (by rw [he]; rfl)
  have hlooks : looks id p.pod ((c, m) :: history) = looks id p.pod history :=
    looks_cons (Move.told?_eq_none hother)
  refine ⟨hlooks ▸ h.timed, h.passed, hlooks ▸ h.intime, ?_⟩
  rw [moves_other hm, lastMoved_other hm]
  by_cases hpass : ∃ time, m = .pass time
  · obtain ⟨time, rfl⟩ := hpass
    rw [hstep.2]
    exact h.stands.pass fun work answer hw => hprompt work answer (hw ▸ hp)
  · rw [hstep.clock_eq fun time he => hpass ⟨time, he⟩]
    exact h.stands

/-- The wait is given what it waits for. If that is a reply about its pod, then it has looked. -/
theorem receive {work : Work} {event : work.wait.Event}
    (h : Paced p id history c (.waiting work none) earlier last)
    (hstep : c.Step (.receive id work event) c') (htoken : p.token ∉ c.raised) :
    Paced p id ((c, .receive id work event) :: history) c' (.waiting work (some event)) earlier
      (work.wait.reading? p.pod event) := by
  obtain ⟨rfl, hnow, hlook⟩ := h.stands.receive hstep.1.2 htoken
    (lastMoved id ((c, .receive id work event) :: history))
  have hlooks : looks id p.pod history = p.timed earlier := by simpa using h.timed
  have hmoves : moves id ((c, .receive id work event) :: history) = moves id history + 1 :=
    moves_subject rfl
  rw [← hstep.clock_eq nofun, ← hmoves] at hnow
  cases hr : work.wait.reading? p.pod event with
  | none =>
    have hsame : looks id p.pod ((c, .receive id work event) :: history) = looks id p.pod history :=
      looks_cons (by rw [Move.told?_receive, hr])
    exact ⟨hsame ▸ h.timed, h.passed, hsame ▸ h.intime, hr ▸ hnow⟩
  | some reply =>
    obtain ⟨hbeat, hopen⟩ := hlook reply hr
    refine ⟨?_, h.passed, ?_, hr ▸ hnow⟩
    · rw [looks_receive hr, hlooks, Option.toList_some, p.timed_concat, hbeat]
    · rw [looks_receive hr]
      intro look hmem
      rcases List.mem_append.mp hmem with hmem | hmem
      · exact h.intime look hmem
      · rw [List.mem_singleton.mp hmem]
        exact hopen

/-- The wait goes on. What it has been told is inconclusive unless it ends. -/
theorem resume {work : Work} {event : work.wait.Event}
    (h : Paced p id history c (.waiting work (some event)) earlier last)
    (hstep : c.Step (.resume id work event) c') :
    ∃ earlier' last', Paced p id ((c, .resume id work event) :: history) c'
      (.after (work.resume c.controllers c.clock event).next) earlier' last' := by
  obtain ⟨earlier', last', hsame, hnew, hnow⟩ := h.stands.resume c.controllers
  have hlooks : looks id p.pod ((c, .resume id work event) :: history) = looks id p.pod history :=
    looks_cons rfl
  refine ⟨earlier', last', by rw [hlooks, h.timed, hsame], fun reply hr => ?_,
    hlooks ▸ h.intime, ?_⟩
  · exact (hnew reply hr).elim (h.passed reply) fun hr => hr
  · rw [moves_subject rfl, lastMoved_subject rfl, hstep.clock_eq nofun]
    exact hnow

end Paced

/-- A wait keeps its pace, if time never passes a point at which it can go on. -/
theorem paced (h : Execution Step c₀ history c) (hclock : c₀.clock = p.start)
    (hstart : c₀.progress? id = some (.waiting (.completion
      (.start p.start p.pod p.period p.limit p.token)) none))
    (hkept : p.deadline.Kept) (hperiod : 0 < p.period.nanos)
    (hprompt : ∀ moment ∈ history, prompt id moment ∧ p.token ∉ moment.1.raised) :
    ∃ progress, c.progress? id = some progress ∧
      ∃ earlier last, Paced p id history c progress earlier last := by
  -- the hypothesis on the history belongs to the invariant, since it is used up to every moment
  have hcourse := task_induction
    (P := fun history c progress =>
      (∀ moment ∈ history, prompt id moment ∧ p.token ∉ moment.1.raised) →
        ∃ earlier last, Paced p id history c progress earlier last) h hstart ?_ ?_ ?_ ?_
  · obtain ⟨progress, hp, hcourse⟩ := hcourse
    exact ⟨progress, hp, hcourse hprompt⟩
  · exact fun _ => ⟨[], none, .start hclock hkept hperiod⟩
  · intro history c c' m progress ih hstep hp hm hprompt
    obtain ⟨hnow, hbefore⟩ := List.forall_mem_cons.mp hprompt
    obtain ⟨earlier, last, hpaced⟩ := ih hbefore
    exact ⟨earlier, last, hpaced.other hstep hp hm hnow.1⟩
  · intro history c c' work event ih hstep hprompt
    obtain ⟨hnow, hbefore⟩ := List.forall_mem_cons.mp hprompt
    obtain ⟨earlier, last, hpaced⟩ := ih hbefore
    exact ⟨earlier, _, hpaced.receive hstep hnow.2⟩
  · intro history c c' work event ih hstep hprompt
    obtain ⟨earlier, last, hpaced⟩ := ih (List.forall_mem_cons.mp hprompt).2
    exact hpaced.resume hstep

/-- A wait has a timeline if the clock can tell its deadline, provided that time never passes a point
at which it can go on and that its token is not raised. Otherwise it panics, and never looks. -/
theorem timeline (h : Execution Step c₀ history c) (hclock : c₀.clock = p.start)
    (hstart : c₀.progress? id = some (.waiting (.completion
      (.start p.start p.pod p.period p.limit p.token)) none))
    (hperiod : 0 < p.period.nanos) (hprompt : ∀ moment ∈ history, prompt id moment)
    (htoken : ∀ moment ∈ history, p.token ∉ moment.1.raised) :
    (∀ k, (p.multiple k).Kept → p.beat k = p.multiple k) ∧
      (p.deadline.Kept → ∃ earlier last, Timeline p id history c earlier last) ∧
      (¬ p.deadline.Kept → c.HasPanicked id ∧ looks id p.pod history = []) := by
  refine ⟨fun k => p.beat_eq, fun hkept => ?_, fun hlate => ?_⟩
  · obtain ⟨progress, hp, earlier, last, hpaced⟩ :=
      paced h hclock hstart hkept hperiod fun moment hmem =>
        ⟨hprompt moment hmem, htoken moment hmem⟩
    refine ⟨earlier, last, hpaced.timed, hpaced.passed, hpaced.intime, ?_, ?_,
      fun time htime hconclusive => ?_⟩
    · have hlength := Pace.length_le hperiod (hpaced.timed ▸ hpaced.intime)
      have hcount := hpaced.stands.count_le
      omega
    · cases progress with
      | waiting work answer =>
        exact .inl ⟨alive hp hpaced.stands.wait_ne_never, hpaced.stands.ahead⟩
      | ended result =>
        obtain ⟨time, waited, rfl, hmoved, hr⟩ := hpaced.stands.returns
        exact .inr ⟨time, waited, hp, hmoved, hr⟩
    · rw [hpaced.timed] at hconclusive
      exact Pace.beat_lt hkept hperiod hpaced.passed htime hconclusive
  · obtain ⟨hpanicked, hrest⟩ := (hasPanicked_start hlate hstart).rest h
    refine ⟨hpanicked, ?_⟩
    rw [looks, told_eq_nil hrest]
    rfl

/-- A wait for a pod that is not there. Its first look fails on its way, its second one comes a
second later. -/
def lostPod : List Act :=
  [.tick 0, .resume 0, .refuse 0 (.transport "connection reset"), .resume 0, .pass ⟨1000000000⟩,
    .tick 0, .resume 0, .serve 0 .epoch, .resume 0]

/-- The wait ends at its second look. -/
theorem timeline_lostPod :
    let p : Pace := ⟨⟨0⟩, ⟨"ops", "pod"⟩, .ofMillis 1000, .ofMillis 2500, ⟨7⟩⟩
    let t := (Site.play [.completion p.pod p.period p.limit p.token]).2
    let history := Site.operatorHistory (t.playOn lostPod).1
    let c := (t.playOn lostPod).2.operator
    t.operator.clock = p.start ∧
    t.operator.progress? 0 = some (.waiting (.completion
      (.start p.start p.pod p.period p.limit p.token)) none) ∧
    0 < p.period.nanos ∧ (∀ moment ∈ history, prompt 0 moment) ∧
    (∀ moment ∈ history, p.token ∉ moment.1.raised) ∧ p.deadline.Kept ∧
    lastMoved 0 history = some ⟨1000000000⟩ ∧
    ∃ earlier last, Timeline p 0 history c earlier last := by
  intro p t history c
  have hclock : t.operator.clock = p.start := rfl
  have hstart : t.operator.progress? 0 = some (.waiting (.completion
      (.start p.start p.pod p.period p.limit p.token)) none) := rfl
  have hperiod : 0 < p.period.nanos := by decide +kernel
  have hprompt : ∀ moment ∈ history, prompt 0 moment := by decide +kernel
  have htoken : ∀ moment ∈ history, p.token ∉ moment.1.raised := by decide +kernel
  have hkept : p.deadline.Kept := by decide +kernel
  have hcourse : Execution Step t.operator history c :=
    (Site.playOn_execution t lostPod).map Site.operator fun hs => hs.1
  obtain ⟨-, hline, -⟩ := timeline hcourse hclock hstart hperiod hprompt htoken
  exact ⟨hclock, hstart, hperiod, hprompt, htoken, hkept, by decide +kernel, hline hkept⟩

/-- A wait that may take one second more than the clock can tell never looks and never ends, however
its pod has ended. -/
theorem not_always_looking :
    let pod : ObjectKey := ⟨"ops", "pod"⟩
    let t := (Site.play
      [.completion pod (.ofMillis 5) (.ofSeconds 9223372036854775808) ⟨7⟩]).2
    ∀ {c : Operator} {history : List (Operator × Move)}, Execution Step t.operator history c →
      looks 0 pod history = [] ∧ ∀ result, c.progress? 0 ≠ some (.ended result) := by
  intro pod t c history h
  let p : Pace := ⟨⟨0⟩, pod, .ofMillis 5, .ofSeconds 9223372036854775808, ⟨7⟩⟩
  have hlate : ¬ p.deadline.Kept := by decide +kernel
  have hstart : t.operator.HasPanicked 0 :=
    hasPanicked_start hlate (show t.operator.progress? 0 = _ from rfl)
  obtain ⟨hpanicked, hrest⟩ := hstart.rest h
  refine ⟨by rw [looks, told_eq_nil hrest]; rfl, fun result hend => ?_⟩
  obtain ⟨work, hwaits, -⟩ := hpanicked
  rw [hend] at hwaits
  cases hwaits

end Operator

end CertRuns
