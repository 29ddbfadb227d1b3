import CertRuns.Proofs.Control.Tracker
import CertRuns.Proofs.Control.Views

/-!
# Every run has a tracker of its own

All runs share one tracker and one numbering of their claims. Nobody can tell: what is done with a
run leads through the same states and gives the same answers, whatever is done with other runs in
between.

* `Use`, `Answer`, `Use.apply` : what users do with a run, by the claims in their hands, and what
  they are told;
* `Session`, `Session.run` : a tracker with the claims of all runs, and a list of calls;
* `Standing`, `Standing.run` : a run by itself, without numbers: its entry, and for each claim
  whether it is in somebody's hands and whether it still counts;
* `Use.Applies`, `Owned` : what a use can do, and what every use keeps;
* `standing_apply`, `run_standing` : a run of a session goes its way as it would by itself;
* `interleavings_agree` : so the order of calls about different runs does not matter.
-/

namespace CertRuns.Tracker

/-! ## Uses of a tracker -/

/-- What users do with a run. Its claims are counted in the order in which they were asked for. -/
inductive Use where
  | claim
  | commit (claim : Nat) (podName : String) (cancel : Token)
  | release (claim : Nat)
  | complete
  | remove
  deriving DecidableEq, Repr

/-- What users are told. -/
inductive Answer where
  | claimed (granted : Bool)
  | committed (inTime : Bool)
  | released
  | completed
  | removed (left : Option ReleasedRun)
  /-- The claim is in nobody's hands: it was refused or is used up. -/
  | unheld
  deriving DecidableEq, Repr

/-- Carry out a use of a run. The claims that were asked for are listed in order, `none` where one
is not in anybody's hands. -/
def Use.apply (t : Tracker) (key : ObjectKey) (claims : List (Option RunClaim)) :
    Use → Tracker × List (Option RunClaim) × Answer
  | claim =>
    let (t', c) := t.claim key
    (t', claims ++ [c], .claimed c.isSome)
  | commit i podName cancel =>
    match claims[i]? with
    | some (some c) =>
      let (t', inTime) := t.commit c podName cancel
      (t', claims.set i none, .committed inTime)
    | _ => (t, claims, .unheld)
  | release i =>
    match claims[i]? with
    | some (some c) => (t.release c, claims.set i none, .released)
    | _ => (t, claims, .unheld)
  | complete => (t.complete key, claims, .completed)
  | remove =>
    let (t', left) := t.remove key
    (t', claims, .removed left)

/-- A call about a run. -/
structure Call where
  key : ObjectKey
  use : Use
  deriving DecidableEq, Repr

/-- A tracker with the claims of all runs. -/
structure Session where
  tracker : Tracker := {}
  claims : ObjectKey → List (Option RunClaim) := fun _ => []

namespace Session

def perform (s : Session) (call : Call) : Session × Answer :=
  let (t, claims, answer) := call.use.apply s.tracker call.key (s.claims call.key)
  (⟨t, fun k => if k = call.key then claims else s.claims k⟩, answer)

/-- Carry out calls one after the other. -/
def run (s : Session) : List Call → Session × List (ObjectKey × Answer)
  | [] => (s, [])
  | call :: calls =>
    let (s', answer) := s.perform call
    let (last, answers) := s'.run calls
    (last, (call.key, answer) :: answers)

end Session

/-- The uses of one run among some calls. -/
def usesOf (key : ObjectKey) (calls : List Call) : List Use :=
  calls.filterMap fun call => if call.key = key then some call.use else none

/-- The answers about one run. -/
def answersOf (key : ObjectKey) (answers : List (ObjectKey × Answer)) : List Answer :=
  answers.filterMap fun e => if e.1 = key then some e.2 else none

/-! ## A run by itself -/

/-- How a run stands: its entry without the number of a claim, and for every claim that is in
somebody's hands whether the entry stems from it. -/
structure Standing where
  entry : Option TrackedRun := none
  claims : List (Option Bool) := []
  deriving DecidableEq, Repr

namespace Standing

def lapsed (claims : List (Option Bool)) : List (Option Bool) := claims.map (·.map fun _ => false)

def perform (x : Standing) : Use → Standing × Answer
  | .claim =>
    match x.entry with
    | none => (⟨some ⟨0, none, none, .deploying⟩, x.claims ++ [some true]⟩, .claimed true)
    | some _ => ({ x with claims := x.claims ++ [none] }, .claimed false)
  | .commit i podName cancel =>
    match x.claims[i]? with
    | some (some true) =>
      (⟨some ⟨0, some podName, some cancel, .running⟩, x.claims.set i none⟩, .committed true)
    | some (some false) => ({ x with claims := x.claims.set i none }, .committed false)
    | _ => (x, .unheld)
  | .release i =>
    match x.claims[i]? with
    | some (some true) => (⟨none, lapsed (x.claims.set i none)⟩, .released)
    | some (some false) => ({ x with claims := x.claims.set i none }, .released)
    | _ => (x, .unheld)
  | .complete =>
    ({ x with entry := x.entry.map fun run => { run with state := .completed } }, .completed)
  | .remove =>
    (⟨none, lapsed x.claims⟩, .removed (x.entry.map fun run => ⟨run.podName, run.cancel⟩))

def run (x : Standing) : List Use → Standing × List Answer
  | [] => (x, [])
  | use :: uses =>
    let (x', answer) := x.perform use
    let (last, answers) := x'.run uses
    (last, answer :: answers)

end Standing

variable {t t' : Tracker} {key k : ObjectKey} {claims claims' : List (Option RunClaim)} {use : Use}
  {answer : Answer} {c : RunClaim} {s : Session}

def standing (t : Tracker) (key : ObjectKey) (claims : List (Option RunClaim)) : Standing :=
  ⟨(t.runs.get? key).map TrackedRun.unnumbered, claims.map (·.map t.holds)⟩

def Session.standing (s : Session) (key : ObjectKey) : Standing :=
  s.tracker.standing key (s.claims key)

/-! ## What a use can do -/

inductive Use.Applies (t : Tracker) (key : ObjectKey) (claims : List (Option RunClaim)) :
    Use → Tracker → List (Option RunClaim) → Answer → Prop
  | refused {run : TrackedRun} (hrun : t.runs.get? key = some run) :
      Applies t key claims .claim t (claims ++ [none]) (.claimed false)
  | granted (hrun : t.runs.get? key = none) :
      Applies t key claims .claim (t.claimed key) (claims ++ [some ⟨key, t.claims + 1⟩])
        (.claimed true)
  | committed {i : Nat} {c : RunClaim} (podName : String) (cancel : Token)
      (hi : claims[i]? = some (some c)) (hholds : t.holds c = true) :
      Applies t key claims (.commit i podName cancel) (t.committed c podName cancel)
        (claims.set i none) (.committed true)
  | late {i : Nat} {c : RunClaim} (podName : String) (cancel : Token)
      (hi : claims[i]? = some (some c)) (hholds : t.holds c = false) :
      Applies t key claims (.commit i podName cancel) t (claims.set i none) (.committed false)
  | released {i : Nat} {c : RunClaim} (hi : claims[i]? = some (some c))
      (hholds : t.holds c = true) :
      Applies t key claims (.release i) (t.without c.key) (claims.set i none) .released
  | dropped {i : Nat} {c : RunClaim} (hi : claims[i]? = some (some c))
      (hholds : t.holds c = false) :
      Applies t key claims (.release i) t (claims.set i none) .released
  | uncommitted {i : Nat} (podName : String) (cancel : Token)
      (hi : ∀ c, claims[i]? ≠ some (some c)) :
      Applies t key claims (.commit i podName cancel) t claims .unheld
  | unreleased {i : Nat} (hi : ∀ c, claims[i]? ≠ some (some c)) :
      Applies t key claims (.release i) t claims .unheld
  | completed : Applies t key claims .complete (t.complete key) claims .completed
  | removed : Applies t key claims .remove (t.without key) claims
      (.removed ((t.runs.get? key).map fun run => ⟨run.podName, run.cancel⟩))

theorem applies (t : Tracker) (key : ObjectKey) (claims : List (Option RunClaim)) (use : Use) :
    use.Applies t key claims (use.apply t key claims).1 (use.apply t key claims).2.1
      (use.apply t key claims).2.2 := by
  cases use with
  | claim =>
    unfold Use.apply
    cases hrun : t.runs.get? key with
    | none =>
      rw [claim_eq_some hrun]
      exact .granted hrun
    | some run =>
      rw [claim_eq_none hrun]
      exact .refused hrun
  | commit i podName cancel =>
    simp only [Use.apply]
    split
    · rename_i c hi
      cases hholds : t.holds c with
      | true =>
        rw [commit_of_holds hholds]
        exact .committed podName cancel hi hholds
      | false =>
        rw [commit_of_not_holds hholds]
        exact .late podName cancel hi hholds
    · rename_i hi
      exact .uncommitted podName cancel hi
  | release i =>
    simp only [Use.apply]
    split
    · rename_i c hi
      cases hholds : t.holds c with
      | true =>
        rw [release_of_holds hholds]
        exact .released hi hholds
      | false =>
        rw [release_of_not_holds hholds]
        exact .dropped hi hholds
    · rename_i hi
      exact .unreleased hi
  | complete => exact .completed
  | remove => exact .removed

/-- The claims in hand of a run are of this run, and they have been handed out. -/
def Owned (t : Tracker) (key : ObjectKey) (claims : List (Option RunClaim)) : Prop :=
  ∀ c, some c ∈ claims → c.key = key ∧ c.number ≤ t.claims

theorem Owned.used (h : Owned t key claims) (i : Nat) : Owned t key (claims.set i none) := by
  intro c hc
  rcases List.mem_or_eq_of_mem_set hc with hc | hc
  · exact h c hc
  · cases hc

namespace Use.Applies

theorem claims_le (h : use.Applies t key claims t' claims' answer) : t.claims ≤ t'.claims := by
  cases h with
  | granted => exact Nat.le_succ _
  | _ => exact Nat.le_refl _

theorem owned (h : use.Applies t key claims t' claims' answer) (ho : Owned t key claims) :
    Owned t' key claims' := by
  cases h with
  | refused =>
    intro c hc
    rw [List.mem_append, List.mem_singleton] at hc
    exact ho c (hc.resolve_right (by simp))
  | granted =>
    intro c hc
    rw [List.mem_append, List.mem_singleton, Option.some.injEq] at hc
    rcases hc with hc | rfl
    · exact ⟨(ho c hc).1, Nat.le_succ_of_le (ho c hc).2⟩
    · exact ⟨rfl, Nat.le_refl _⟩
  | @committed i | @late i | @released i | @dropped i => exact ho.used i
  | uncommitted | unreleased | completed | removed => exact ho

/-- A use of a run leaves the entries of other runs alone. -/
theorem get?_ne (h : use.Applies t key claims t' claims' answer) (ho : Owned t key claims)
    (hk : k ≠ key) : t'.runs.get? k = t.runs.get? k := by
  have hown {i : Nat} {c : RunClaim} (hi : claims[i]? = some (some c)) : k ≠ c.key := by
    rw [(ho c (List.mem_of_getElem? hi)).1]
    exact hk
  cases h with
  | granted => rw [get?_claimed, if_neg hk]
  | committed _ _ hi => rw [get?_committed, if_neg (hown hi)]
  | released hi => rw [get?_without, if_neg (hown hi)]
  | completed => rw [get?_complete, if_neg hk]
  | removed => rw [get?_without, if_neg hk]
  | refused | late | dropped | uncommitted | unreleased => rfl

end Use.Applies

/-! ## A run of a session goes its way by itself -/

theorem standing_congr (hentry : t'.runs.get? key = t.runs.get? key)
    (ho : ∀ c, some c ∈ claims → c.key = key) : t'.standing key claims = t.standing key claims := by
  unfold standing
  rw [hentry]
  congr 1
  refine List.map_congr_left fun o hmem => ?_
  cases o with
  | none => rfl
  | some c =>
    have hholds : t'.holds c = t.holds c := holds_congr (by rw [ho c hmem, hentry])
    exact congrArg some hholds

theorem map_holds_lapsed (h : ∀ c, some c ∈ claims → t'.holds c = false) :
    claims.map (·.map t'.holds) = Standing.lapsed (claims.map (·.map t.holds)) := by
  unfold Standing.lapsed
  rw [List.map_map]
  refine List.map_congr_left fun o hmem => ?_
  cases o with
  | none => rfl
  | some c => exact congrArg some (h c hmem)

/-- The claims that were pending when the run had no entry had lapsed before. -/
theorem lapsed_of_none (hrun : t.runs.get? key = none) (ho : Owned t key claims) :
    Standing.lapsed (claims.map (·.map t.holds)) = claims.map (·.map t.holds) :=
  (map_holds_lapsed fun c hc => holds_of_none (by rw [(ho c hc).1, hrun])).symm

theorem standing_getElem? (t : Tracker) (key : ObjectKey) (claims : List (Option RunClaim))
    (i : Nat) :
    (t.standing key claims).claims[i]? = claims[i]?.map (·.map t.holds) :=
  List.getElem?_map ..

/-- A use of a run leads from where the run stands to where it would lead if the run had a tracker
of its own, with the same answer. -/
theorem Use.Applies.standing (h : use.Applies t key claims t' claims' answer)
    (ho : Owned t key claims) :
    (t'.standing key claims', answer) = (t.standing key claims).perform use := by
  have hpending {i : Nat} {c : RunClaim} (hi : claims[i]? = some (some c)) :
      (t.standing key claims).claims[i]? = some (some (t.holds c)) := by
    rw [standing_getElem?, hi]
    rfl
  have hfree {i : Nat} (hi : ∀ c, claims[i]? ≠ some (some c)) (flag : Bool) :
      (t.standing key claims).claims[i]? ≠ some (some flag) := by
    rw [standing_getElem?]
    intro hflag
    obtain ⟨o, ho, hflag⟩ := Option.map_eq_some_iff.1 hflag
    obtain ⟨c, rfl, -⟩ := Option.map_eq_some_iff.1 hflag
    exact hi c ho
  cases h with
  | refused hrun =>
    unfold Tracker.standing Standing.perform
    rw [hrun, List.map_append]
    rfl
  | granted hrun =>
    have hold : ∀ c, some c ∈ claims → (t.claimed key).holds c = false := by
      intro c hc
      obtain ⟨hkey, hle⟩ := ho c hc
      rw [holds_of_some (by rw [get?_claimed, if_pos hkey]), beq_eq_false_iff_ne]
      show t.claims + 1 ≠ c.number
      omega
    have hnew : (t.claimed key).holds ⟨key, t.claims + 1⟩ = true := by
      rw [holds_of_some (by rw [get?_claimed, if_pos rfl])]
      exact beq_self_eq_true _
    unfold Tracker.standing Standing.perform
    rw [hrun, List.map_append, map_holds_lapsed (t := t) hold, lapsed_of_none hrun ho,
      get?_claimed, if_pos rfl, List.map_singleton]
    simp only [Option.map_some, hnew]
    rfl
  | @committed i c podName cancel hi hholds =>
    have hkey := (ho c (List.mem_of_getElem? hi)).1
    have hsame : ∀ o ∈ claims, o.map (t.committed c podName cancel).holds = o.map t.holds := by
      intro o hmem
      cases o with
      | none => rfl
      | some c' =>
        obtain ⟨run, hrun, hnumber⟩ := holds_iff.1 hholds
        have hkey' : c'.key = c.key := (ho c' hmem).1.trans hkey.symm
        refine congrArg some ?_
        rw [holds_of_some (by rw [get?_committed, if_pos hkey']),
          holds_of_some (hkey' ▸ hrun), hnumber]
    simp only [Standing.perform, hpending hi, hholds]
    unfold Tracker.standing
    rw [get?_committed, if_pos hkey.symm, List.map_set, List.map_congr_left hsame]
    rfl
  | @late i c podName cancel hi hholds =>
    simp only [Standing.perform, hpending hi, hholds]
    unfold Tracker.standing
    rw [List.map_set]
    rfl
  | @released i c hi hholds =>
    have hkey := (ho c (List.mem_of_getElem? hi)).1
    have hnone : (t.without c.key).runs.get? key = none := by rw [get?_without, if_pos hkey.symm]
    simp only [Standing.perform, hpending hi, hholds]
    unfold Tracker.standing
    rw [hnone, map_holds_lapsed (t := t) fun c' hc' =>
      holds_of_none (by rw [((ho.used i) c' hc').1, hnone]), List.map_set]
    rfl
  | @dropped i c hi hholds =>
    simp only [Standing.perform, hpending hi, hholds]
    unfold Tracker.standing
    rw [List.map_set]
    rfl
  | uncommitted podName cancel hi =>
    simp only [Standing.perform]
    split
    · rename_i hflag
      exact absurd hflag (hfree hi true)
    · rename_i hflag
      exact absurd hflag (hfree hi false)
    · rfl
  | unreleased hi =>
    simp only [Standing.perform]
    split
    · rename_i hflag
      exact absurd hflag (hfree hi true)
    · rename_i hflag
      exact absurd hflag (hfree hi false)
    · rfl
  | completed =>
    have hholds : (t.complete key).holds = t.holds := by
      funext c
      unfold holds
      rw [get?_complete]
      by_cases hc : c.key = key
      · rw [if_pos hc]
        cases t.runs.get? c.key <;> rfl
      · rw [if_neg hc]
    unfold Tracker.standing Standing.perform
    rw [hholds, get?_complete, if_pos rfl]
    cases t.runs.get? key <;> rfl
  | removed =>
    have hnone : (t.without key).runs.get? key = none := by rw [get?_without, if_pos rfl]
    unfold Tracker.standing Standing.perform
    rw [hnone, map_holds_lapsed (t := t) fun c hc => holds_of_none (by rw [(ho c hc).1, hnone])]
    cases t.runs.get? key <;> rfl

namespace Session

/-- The claims in hand are of the runs that they are kept for. -/
def Sound (s : Session) : Prop := ∀ key, Owned s.tracker key (s.claims key)

theorem sound_start : Sound {} := fun _ _ h => by cases h

theorem Sound.perform (hs : s.Sound) (call : Call) : (s.perform call).1.Sound := by
  have happlies := applies s.tracker call.key (s.claims call.key) call.use
  intro k c hc
  have hc : some c ∈ if k = call.key
    then (call.use.apply s.tracker call.key (s.claims call.key)).2.1
    else s.claims k := hc
  by_cases hk : k = call.key
  · subst hk
    rw [if_pos rfl] at hc
    exact happlies.owned (hs _) c hc
  · rw [if_neg hk] at hc
    exact ⟨(hs k c hc).1, Nat.le_trans (hs k c hc).2 happlies.claims_le⟩

theorem perform_standing (hs : s.Sound) (call : Call) :
    ((s.perform call).1.standing call.key, (s.perform call).2) =
      (s.standing call.key).perform call.use := by
  have happlies := applies s.tracker call.key (s.claims call.key) call.use
  have hclaims : (s.perform call).1.claims call.key =
      (call.use.apply s.tracker call.key (s.claims call.key)).2.1 := if_pos rfl
  unfold Session.standing
  rw [hclaims]
  exact happlies.standing (hs _)

/-- A call about one run leaves the others where they stand. -/
theorem perform_standing_ne (hs : s.Sound) {call : Call} (hk : k ≠ call.key) :
    (s.perform call).1.standing k = s.standing k := by
  have happlies := applies s.tracker call.key (s.claims call.key) call.use
  have hclaims : (s.perform call).1.claims k = s.claims k := if_neg hk
  unfold Session.standing
  rw [hclaims]
  exact standing_congr (happlies.get?_ne (hs _) hk) fun c hc => (hs k c hc).1

theorem run_standing (hs : s.Sound) (calls : List Call) (key : ObjectKey) :
    ((s.run calls).1.standing key, answersOf key (s.run calls).2) =
      (s.standing key).run (usesOf key calls) := by
  induction calls generalizing s with
  | nil => rfl
  | cons call calls ih =>
    have hlast := ih (hs.perform call)
    by_cases hk : call.key = key
    · have huses : usesOf key (call :: calls) = call.use :: usesOf key calls := by
        simp [usesOf, hk]
      have hanswers : answersOf key (s.run (call :: calls)).2 =
          (s.perform call).2 :: answersOf key ((s.perform call).1.run calls).2 := by
        simp [run, answersOf, hk]
      have hstep := perform_standing hs call
      rw [hk] at hstep
      rw [huses, hanswers, Standing.run, ← hstep]
      simp only
      rw [← hlast]
      rfl
    · have huses : usesOf key (call :: calls) = usesOf key calls := by
        simp [usesOf, hk]
      have hanswers : answersOf key (s.run (call :: calls)).2 =
          answersOf key ((s.perform call).1.run calls).2 := by
        simp [run, answersOf, hk]
      rw [huses, hanswers, ← perform_standing_ne hs (Ne.symm hk), ← hlast]
      rfl

end Session

/-! ## Interleavings -/

/-- Two trackers that nobody can tell apart. -/
structure Alike (t t' : Tracker) : Prop where
  contains_eq : ∀ key, t.contains key = t'.contains key
  podName?_eq : ∀ key, t.podName? key = t'.podName? key
  state?_eq : ∀ key, t.state? key = t'.state? key
  size_eq : t.size = t'.size
  snapshot_eq : t.snapshot = t'.snapshot

theorem alike_of_unnumbered (h : ∀ key, (t.runs.get? key).map TrackedRun.unnumbered =
    (t'.runs.get? key).map TrackedRun.unnumbered) : Alike t t' where
  contains_eq key := by
    have hsome := congrArg Option.isSome (h key)
    rw [Option.isSome_map, Option.isSome_map] at hsome
    exact hsome
  podName?_eq key := by
    have hpod := congrArg (Option.bind · TrackedRun.podName) (h key)
    simp only [Option.bind_map] at hpod
    exact hpod
  state?_eq key := by
    have hstate := congrArg (Option.map TrackedRun.state) (h key)
    rw [Option.map_map, Option.map_map] at hstate
    exact hstate
  size_eq := by rw [Tracker.size_eq, Tracker.size_eq, Tracker.snapshot_eq h]
  snapshot_eq := Tracker.snapshot_eq h

/-- What a tracker lists: every tracked run once, in order, as the lookups show it. The page of
runs tells this list and its length, which is the number of entries. -/
structure Listed (t : Tracker) : Prop where
  once : ∀ key, (t.snapshot.map (·.key)).count key = if t.contains key then 1 else 0
  ordered : t.snapshot.Pairwise fun v w =>
    v.key.ns < w.key.ns ∨ v.key.ns = w.key.ns ∧ v.key.name < w.key.name
  shown : ∀ v ∈ t.snapshot, t.podName? v.key = v.podName ∧ t.state? v.key = some v.state
  size_eq : t.size = t.snapshot.length
  page : ∀ (ready : Bool) (now : Timestamp), Page.runs.content ⟨ready, t⟩ now =
    (200, .record [("data", .ofList TrackedView.toJson t.snapshot),
      ("meta", .record [("total", .ofNat t.snapshot.length)])])

theorem listed (t : Tracker) : Listed t where
  once := t.count_snapshot
  ordered := t.snapshot_ordered
  shown v hv := by
    obtain ⟨run, hrun, hpod, hstate⟩ := mem_snapshot.1 hv
    unfold podName? state?
    rw [hrun, ← hpod, ← hstate]
    exact ⟨rfl, rfl⟩
  size_eq := t.size_eq
  page ready now := by rw [← t.size_eq]; rfl

/-- Calls about different runs are independent. If two lists of calls have the same calls about
every run in the same order, then every call gets the same answer in both, and the trackers that
they lead to cannot be told apart. What a tracker lists is at every moment what it has. -/
theorem interleavings_agree {calls calls' : List Call}
    (h : ∀ key, usesOf key calls = usesOf key calls') :
    (∀ key, answersOf key (Session.run {} calls).2 = answersOf key (Session.run {} calls').2) ∧
      Alike (Session.run {} calls).1.tracker (Session.run {} calls').1.tracker ∧
      Listed (Session.run {} calls).1.tracker := by
  have hsame (key : ObjectKey) :
      ((Session.run {} calls).1.standing key, answersOf key (Session.run {} calls).2) =
        ((Session.run {} calls').1.standing key, answersOf key (Session.run {} calls').2) := by
    rw [Session.run_standing Session.sound_start, Session.run_standing Session.sound_start, h]
  refine ⟨fun key => congrArg Prod.snd (hsame key), alike_of_unnumbered fun key => ?_, listed _⟩
  exact congrArg (fun e => e.1.entry) (hsame key)

/-- A run is claimed, removed and claimed again, and its first claim comes too late. -/
def contestedCalls (key : ObjectKey) : List Call :=
  [⟨key, .claim⟩, ⟨key, .remove⟩, ⟨key, .claim⟩, ⟨key, .commit 0 "cnf-job-run-1" ⟨0⟩⟩,
    ⟨key, .commit 1 "cnf-job-run-2" ⟨1⟩⟩]

/-- Two runs, one after the other in either order: the claims get different numbers, and nobody can
tell. -/
theorem interleavings_agree_contested :
    let first : ObjectKey := ⟨"ops", "a"⟩
    let second : ObjectKey := ⟨"ops", "b"⟩
    let calls := contestedCalls first ++ contestedCalls second
    let calls' := contestedCalls second ++ contestedCalls first
    (∀ key, usesOf key calls = usesOf key calls') ∧
      (Session.run {} calls).1.tracker ≠ (Session.run {} calls').1.tracker ∧
      (∀ key, answersOf key (Session.run {} calls).2 = answersOf key (Session.run {} calls').2) ∧
      Alike (Session.run {} calls).1.tracker (Session.run {} calls').1.tracker ∧
      Listed (Session.run {} calls).1.tracker := by
  intro first second calls calls'
  have huses : ∀ key, usesOf key calls = usesOf key calls' := by
    intro key
    have hskip {k : ObjectKey} (hk : k ≠ key) : usesOf key (contestedCalls k) = [] := by
      simp [usesOf, contestedCalls, hk]
    have happend (l l' : List Call) : usesOf key (l ++ l') = usesOf key l ++ usesOf key l' :=
      List.filterMap_append
    rw [happend, happend]
    by_cases hk : first = key
    · have hne : second ≠ key := hk ▸ by decide
      rw [hskip hne, List.append_nil, List.nil_append]
    · rw [hskip hk, List.append_nil, List.nil_append]
  exact ⟨huses, by decide +kernel, interleavings_agree huses⟩

end CertRuns.Tracker
