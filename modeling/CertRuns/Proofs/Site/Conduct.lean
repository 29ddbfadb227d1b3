import CertRuns.Proofs.Cluster.Calls
import CertRuns.Proofs.Job.Agreement
import CertRuns.Proofs.Operator.Fates
import CertRuns.Proofs.Site.Keys
import CertRuns.Proofs.Site.Provenance
import CertRuns.Proofs.Site.Undisturbed

/-!
# What one reconciliation does

A reconciliation that is left alone does one thing for each of its outcomes. It has either made an
entry with a pod, or removed both, or it leaves the tracker and the pods as it has found them.

* `Conduct` : what has happened between the start of a reconciliation and its end;
* `Standing` : where a reconciliation stands on the way; `Standing.receive`, `Standing.resume`;
* `conducts` : every reconciliation that is left alone conducts itself so.
-/

namespace CertRuns

open Rehearsal (Work Result)

/-- What a reconciliation has done when it returns. It started with the controller `d` at the store
`s`, and leaves the controller `d'` and the store `s'`. -/
inductive Conduct (key : ObjectKey) (d : Controller) (s : Store) (d' : Controller) (s' : Store) :
    Except ClusterError Outcome → Prop
  /-- The claim was given back, and there is no new pod. -/
  | failed {e : ClusterError} (hruns : d'.tracker.runs = d.tracker.runs) (hpods : s'.pods = s.pods) :
      Conduct key d s d' s' (.error e)
  /-- The same; perhaps the status says so. -/
  | deployFailed {reason : String} (hruns : d'.tracker.runs = d.tracker.runs)
      (hpods : s'.pods = s.pods) : Conduct key d s d' s' (.ok (.deployFailed reason))
  /-- The run was tracked, and nothing has happened. -/
  | alreadyTracked {entry : TrackedRun} (hentry : d.tracker.runs.get? key = some entry)
      (htracker : d'.tracker = d.tracker) (hstore : s' = s) :
      Conduct key d s d' s' (.ok .alreadyTracked)
  /-- There was nothing, and nothing has happened. -/
  | absent (hrun : s.runs.get? key = none) (hentry : d.tracker.runs.get? key = none)
      (htracker : d'.tracker = d.tracker) (hstore : s' = s) : Conduct key d s d' s' (.ok .absent)
  /-- The run got an entry and a pod of its own. -/
  | started {run : Run} {pod : Pod} {podName : String} {token : Token}
      (hrun : s.runs.get? key = some run) (hentry : d.tracker.runs.get? key = none)
      (hfree : s.pods.get? ⟨key.ns, podName⟩ = none)
      (hpods : s'.pods = s.pods.insert ⟨key.ns, podName⟩ pod)
      (howners : pod.metadata.owners = [run.ownerReference])
      (hruns : d'.tracker.runs =
        d.tracker.runs.insert key ⟨d.tracker.claims + 1, some podName, some token, .running⟩) :
      Conduct key d s d' s' (.ok (.started podName))
  /-- The run got an entry with the pod that its status named. -/
  | adopted {run : Run} {pod : Pod} {podName : String} {token : Token}
      (hrun : s.runs.get? key = some run) (hentry : d.tracker.runs.get? key = none)
      (hname : run.status.podName = some podName)
      (hphase : run.status.phase = .deploying ∨ run.status.phase = .running)
      (hpod : s.pods.get? ⟨key.ns, podName⟩ = some pod) (hstore : s' = s)
      (hruns : d'.tracker.runs =
        d.tracker.runs.insert key ⟨d.tracker.claims + 1, some podName, some token, .running⟩) :
      Conduct key d s d' s' (.ok (.adopted podName))
  /-- The entry of a run that is gone was removed, its token was raised, and its pod is gone. -/
  | cleaned {entry : TrackedRun} {pod : Option String} (hrun : s.runs.get? key = none)
      (hgone : s'.runs = s.runs) (hentry : d.tracker.runs.get? key = some entry)
      (hname : entry.podName = pod) (hruns : d'.tracker.runs = d.tracker.runs.erase key)
      (hcancelled : ∀ token ∈ entry.cancel, d'.isCancelled token = true)
      (hpods : s'.pods = match pod with
        | some podName => s.pods.erase ⟨key.ns, podName⟩
        | none => s.pods) :
      Conduct key d s d' s' (.ok (.cleaned pod))

/-- Only the tracker and the raised tokens of the controller count. -/
theorem Conduct.congr {key : ObjectKey} {d d' left : Controller} {s s' : Store}
    {result : Except ClusterError Outcome} (h : Conduct key d s d' s' result)
    (ht : left.tracker = d'.tracker)
    (hc : ∀ token, left.isCancelled token = d'.isCancelled token) :
    Conduct key d s left s' result := by
  have hsame : left.tracker.runs = d'.tracker.runs := congrArg Tracker.runs ht
  cases h with
  | failed hruns hpods => exact .failed (hsame.trans hruns) hpods
  | deployFailed hruns hpods => exact .deployFailed (hsame.trans hruns) hpods
  | alreadyTracked hentry htracker hstore =>
    exact .alreadyTracked hentry (ht.trans htracker) hstore
  | absent hrun hentry htracker hstore => exact .absent hrun hentry (ht.trans htracker) hstore
  | started hrun hentry hfree hpods howners hruns =>
    exact .started hrun hentry hfree hpods howners (hsame.trans hruns)
  | adopted hrun hentry hname hphase hpod hstore hruns =>
    exact .adopted hrun hentry hname hphase hpod hstore (hsame.trans hruns)
  | cleaned hrun hgone hentry hname hruns hcancelled hpods =>
    exact .cleaned hrun hgone hentry hname (hsame.trans hruns)
      (fun token hm => (hc token).trans (hcancelled token hm)) hpods

/-- A pod that was made stays so while only statuses are written. -/
theorem Conduct.started_kept {key : ObjectKey} {d d' : Controller} {s s' s'' : Store}
    {podName : String} (h : Conduct key d s d' s' (.ok (.started podName)))
    (hkept : s''.pods = s'.pods) : Conduct key d s d' s'' (.ok (.started podName)) := by
  cases h with
  | started hrun hentry hfree hpods howners hruns =>
    exact .started hrun hentry hfree (hkept.trans hpods) howners hruns

theorem Controller.isCancelled_raise? (d : Controller) {cancel : Option Token} {token : Token}
    (h : token ∈ cancel) : (d.raise? cancel).isCancelled token = true := by
  cases h
  simp [raise?, raise, isCancelled]

theorem Run.phase_of_recordedPod? {run : Run} {podName : String}
    (h : run.recordedPod? = some podName) :
    run.status.phase = .deploying ∨ run.status.phase = .running := by
  unfold recordedPod? at h
  split at h
  · rename_i hphase
    exact .inl hphase
  · rename_i hphase
    exact .inr hphase
  · cases h

/-- A change that is served touches its own run at most. -/
theorem Updating.Sound.serves {s s' : Store} {u : StatusUpdate} {event : u.wait.Event}
    (h : Updating.Sound s ⟨u, none⟩) (hs : s.Serves s' u.wait event) :
    s.Touches s' u.key ∧ s'.pods = s.pods := by
  obtain ⟨key, change, policy, attempt, stage⟩ := u
  cases stage with
  | reading =>
    obtain ⟨stamp, hs⟩ := hs
    cases hs
    exact ⟨Store.touches_of_runs rfl _, rfl⟩
  | writing w =>
    obtain ⟨stamp, hs⟩ := hs
    obtain ⟨run, _, hkey, rfl⟩ := h
    have hwritten := s.updateRunStatus_touches { run with status := change run.status }
    have hpods := s.pods_updateRunStatus { run with status := change run.status }
    rw [show ({ run with status := change run.status } : Run).key = key from hkey] at hwritten
    obtain rfl : _ = s' := congrArg Prod.fst hs
    exact ⟨hwritten, hpods⟩
  | drawing | resting | panicked =>
    obtain rfl : s' = s := hs
    exact ⟨Store.touches_of_runs rfl _, rfl⟩

namespace Site

variable {key : ObjectKey} {s₀ s s' : Store} {d₀ d d' : Controller} {owner : Nat}
  {told : Option Nat}

/-! ## Stages -/

/-- The tracker holds what it held at first, and the claim on a run that was not tracked. -/
structure Claimed (key : ObjectKey) (d₀ d : Controller) : Prop where
  free : d₀.tracker.runs.get? key = none
  tracker : d.tracker = d₀.tracker.claimed key

theorem Claimed.holds (h : Claimed key d₀ d) :
    d.tracker.holds ⟨key, d₀.tracker.claims + 1⟩ = true := by
  rw [h.tracker]
  exact Tracker.holds_iff.mpr ⟨_, by rw [Tracker.get?_claimed, if_pos rfl], rfl⟩

/-- A claim that is given back leaves no trace in the table. -/
theorem Claimed.release (h : Claimed key d₀ d) :
    (d.tracker.release ⟨key, d₀.tracker.claims + 1⟩).runs = d₀.tracker.runs := by
  rw [Tracker.release_of_holds h.holds, h.tracker]
  exact Table.erase_insert _ _ h.free

theorem Claimed.committed (h : Claimed key d₀ d) (podName : String) (token : Token) :
    (d.tracker.committed ⟨key, d₀.tracker.claims + 1⟩ podName token).runs =
      d₀.tracker.runs.insert key ⟨d₀.tracker.claims + 1, some podName, some token, .running⟩ := by
  rw [h.tracker]
  exact Table.insert_insert _ _ _ _

/-- Where a reconciliation stands that has started with the controller `d₀` at the store `s₀`. -/
inductive Standing (key : ObjectKey) (s₀ : Store) (d₀ : Controller) (owner : Nat)
    (told : Option Nat) : Store → Controller → Progress → Prop
  | fetching : Standing key s₀ d₀ owner told s₀ d₀
      (.waiting (.reconcile owner told ⟨key, .fetching⟩) none)
  | fetched {run : Run} (hrun : s₀.runs.get? key = some run) :
      Standing key s₀ d₀ owner told s₀ d₀
        (.waiting (.reconcile owner told ⟨key, .fetching⟩) (some (.ok run)))
  | missed {e : ClusterError} (hrun : s₀.runs.get? key = none) :
      Standing key s₀ d₀ owner told s₀ d₀
        (.waiting (.reconcile owner told ⟨key, .fetching⟩) (some (.error e)))
  | inspecting {d : Controller} {run : Run} {podName : String} {claim : RunClaim}
      {answer : Option (Except ClusterError Pod)} (hrun : s₀.runs.get? key = some run)
      (hclaimed : Claimed key d₀ d) (hclaim : claim = ⟨key, d₀.tracker.claims + 1⟩)
      (hpod : run.recordedPod? = some podName)
      (hanswer : ∀ reply ∈ answer, reply = s₀.getPod ⟨key.ns, podName⟩) :
      Standing key s₀ d₀ owner told s₀ d
        (.waiting (.reconcile owner told ⟨key, .inspecting run claim ⟨key.ns, podName⟩⟩) answer)
  | announcing {s : Store} {d : Controller} {run : Run} {claim : RunClaim} {u : StatusUpdate}
      {answer : Option u.wait.Event} (hrun : s₀.runs.get? key = some run)
      (hclaimed : Claimed key d₀ d) (hclaim : claim = ⟨key, d₀.tracker.claims + 1⟩)
      (hpods : s.pods = s₀.pods) (hkey : u.key = key) (hu : Updating.Sound s ⟨u, answer⟩) :
      Standing key s₀ d₀ owner told s d
        (.waiting (.reconcile owner told ⟨key, .announcing run claim u⟩) answer)
  | creating {s : Store} {d : Controller} {run : Run} {claim : RunClaim} {podName : String}
      {pod : Pod} (hrun : s₀.runs.get? key = some run)
      (hclaimed : Claimed key d₀ d) (hclaim : claim = ⟨key, d₀.tracker.claims + 1⟩)
      (hpods : s.pods = s₀.pods) (hpod : pod.key = ⟨key.ns, podName⟩)
      (howners : pod.metadata.owners = [run.ownerReference]) :
      Standing key s₀ d₀ owner told s d
        (.waiting (.reconcile owner told ⟨key, .creating run claim podName pod⟩) none)
  | created {s : Store} {d : Controller} {run : Run} {claim : RunClaim} {podName : String}
      {pod stored : Pod} (hrun : s₀.runs.get? key = some run)
      (hclaimed : Claimed key d₀ d) (hclaim : claim = ⟨key, d₀.tracker.claims + 1⟩)
      (hfree : s₀.pods.get? ⟨key.ns, podName⟩ = none)
      (hpods : s.pods = s₀.pods.insert ⟨key.ns, podName⟩ stored)
      (howners : stored.metadata.owners = [run.ownerReference]) :
      Standing key s₀ d₀ owner told s d
        (.waiting (.reconcile owner told ⟨key, .creating run claim podName pod⟩)
          (some (.ok stored)))
  | rejected {s : Store} {d : Controller} {run : Run} {claim : RunClaim} {podName : String}
      {pod : Pod} {e : ClusterError} (hclaimed : Claimed key d₀ d)
      (hclaim : claim = ⟨key, d₀.tracker.claims + 1⟩) (hpods : s.pods = s₀.pods) :
      Standing key s₀ d₀ owner told s d
        (.waiting (.reconcile owner told ⟨key, .creating run claim podName pod⟩)
          (some (.error e)))
  | excusing {s : Store} {d : Controller} {claim : RunClaim} {reason : String} {u : StatusUpdate}
      {answer : Option u.wait.Event} (hclaimed : Claimed key d₀ d)
      (hclaim : claim = ⟨key, d₀.tracker.claims + 1⟩) (hpods : s.pods = s₀.pods)
      (hkey : u.key = key) (hu : Updating.Sound s ⟨u, answer⟩) :
      Standing key s₀ d₀ owner told s d
        (.waiting (.reconcile owner told ⟨key, .excusing claim reason u⟩) answer)
  | recording {s : Store} {d : Controller} {run : Run} {podName : String} {token : Token}
      {u : StatusUpdate} {answer : Option u.wait.Event}
      (hdone : Conduct key d₀ s₀ d s (.ok (.started podName))) (hkey : u.key = key)
      (hu : Updating.Sound s ⟨u, answer⟩) :
      Standing key s₀ d₀ owner told s d
        (.waiting (.reconcile owner told ⟨key, .recording run podName token u⟩) answer)
  | deleting {d : Controller} {entry : TrackedRun} {podName : String}
      (hrun : s₀.runs.get? key = none) (hentry : d₀.tracker.runs.get? key = some entry)
      (hruns : d.tracker.runs = d₀.tracker.runs.erase key)
      (hcancelled : ∀ token ∈ entry.cancel, d.isCancelled token = true)
      (hname : entry.podName = some podName) :
      Standing key s₀ d₀ owner told s₀ d
        (.waiting (.reconcile owner told ⟨key, .deleting ⟨key.ns, podName⟩⟩) none)
  | deleted {s : Store} {d : Controller} {podName : String} {reply : Except ClusterError Unit}
      (hdone : Conduct key d₀ s₀ d s (.ok (.cleaned (some podName)))) :
      Standing key s₀ d₀ owner told s d
        (.waiting (.reconcile owner told ⟨key, .deleting ⟨key.ns, podName⟩⟩) (some reply))
  | ended {s : Store} {d : Controller} {result : Except ClusterError Outcome}
      (hdone : Conduct key d₀ s₀ d s result) :
      Standing key s₀ d₀ owner told s d (.ended (.reconciled result))

theorem Standing.work_eq {work : Work} {answer : Option work.wait.Event}
    (h : Standing key s₀ d₀ owner told s d (.waiting work answer)) :
    ∃ stage, work = .reconcile owner told ⟨key, stage⟩ := by
  cases h <;> exact ⟨_, rfl⟩

theorem Standing.receive {work : Work} {event : work.wait.Event}
    (h : Standing key s₀ d₀ owner told s d (.waiting work none)) (hsound : s.Sound)
    (hs : s.Serves s' work.wait event) :
    Standing key s₀ d₀ owner told s' d (.waiting work (some event)) ∧ s.Touches s' key := by
  cases h with
  | fetching =>
    obtain ⟨stamp, hs⟩ := hs
    cases hs
    refine ⟨?_, Store.touches_of_runs rfl _⟩
    cases hrun : s₀.runs.get? key with
    | none =>
      rw [show s₀.getRun key = .error (.notFound .run key) by rw [Store.getRun, hrun]]
      exact .missed hrun
    | some run =>
      rw [show s₀.getRun key = .ok run by rw [Store.getRun, hrun]]
      exact .fetched hrun
  | inspecting hrun hclaimed hclaim hpod =>
    obtain ⟨stamp, hs⟩ := hs
    cases hs
    exact ⟨.inspecting hrun hclaimed hclaim hpod fun reply he => (Option.some.inj he).symm,
      Store.touches_of_runs rfl _⟩
  | announcing hrun hclaimed hclaim hpods hkey hu =>
    obtain ⟨htouches, hkept⟩ := hu.serves hs
    exact ⟨.announcing hrun hclaimed hclaim (hkept.trans hpods) hkey (hu.receive hsound hs.answers),
      hkey ▸ htouches⟩
  | @creating _ _ _ _ _ pod hrun hclaimed hclaim hpods hpod howners =>
    obtain ⟨stamp, hs⟩ := hs
    have hruns := Store.runs_createPod s stamp pod
    rw [show s.createPod stamp pod = (s', event) from hs] at hruns
    refine ⟨?_, Store.touches_of_runs hruns _⟩
    cases event with
    | error e => exact .rejected hclaimed hclaim ((Store.createPod_error hs).trans hpods)
    | ok stored =>
      obtain ⟨hfree, hmade, hown⟩ := Store.createPod_stored hs
      rw [hpod, hpods] at hfree hmade
      exact .created hrun hclaimed hclaim hfree hmade (hown.trans howners)
  | excusing hclaimed hclaim hpods hkey hu =>
    obtain ⟨htouches, hkept⟩ := hu.serves hs
    exact ⟨.excusing hclaimed hclaim (hkept.trans hpods) hkey (hu.receive hsound hs.answers),
      hkey ▸ htouches⟩
  | recording hdone hkey hu =>
    obtain ⟨htouches, hkept⟩ := hu.serves hs
    exact ⟨.recording (hdone.started_kept hkept) hkey (hu.receive hsound hs.answers),
      hkey ▸ htouches⟩
  | @deleting _ _ podName hrun hentry hruns hcancelled hname =>
    obtain ⟨stamp, hs⟩ := hs
    have hgone := s₀.runs_deletePod ⟨key.ns, podName⟩
    have hpods := s₀.deletePod_pods ⟨key.ns, podName⟩
    rw [show s₀.deletePod ⟨key.ns, podName⟩ = (s', event) from hs] at hgone hpods
    exact ⟨.deleted (.cleaned hrun hgone hentry hname hruns hcancelled hpods),
      Store.touches_of_runs hgone _⟩

theorem Standing.resume {stage : Reconcile.Stage} {event : (Reconcile.mk key stage).wait.Event}
    {now : Instant} {turn : Reconcile.Turn}
    (h : Standing key s₀ d₀ owner told s d
      (.waiting (.reconcile owner told ⟨key, stage⟩) (some event))) (hsound : s₀.Sound)
    (hr : Reconcile.Resumes d now key stage event d' turn) {left : Controller}
    (ht : left.tracker = d'.tracker)
    (hc : ∀ token, left.isCancelled token = d'.isCancelled token) :
    Standing key s₀ d₀ owner told s left (.after (Operator.turned owner told turn)) := by
  have hruns : left.tracker.runs = d'.tracker.runs := congrArg Tracker.runs ht
  cases h with
  | fetched hrun =>
    cases hr with
    | refused hentry => exact .ended (.alreadyTracked hentry ht rfl)
    | inspect hentry hpod =>
      exact .inspecting hrun ⟨hentry, ht⟩ rfl hpod fun _ he => absurd he (Option.not_mem_none _)
    | announce hentry hpod =>
      exact .announcing hrun ⟨hentry, ht⟩ rfl rfl rfl (.of_reading rfl)
  | missed hrun =>
    cases hr with
    | absent _ hentry => exact .ended (.absent hrun hentry ht rfl)
    | unread => exact .ended (.failed hruns rfl)
    | dropped _ hentry hname =>
      rw [Controller.tracker_raise?] at hruns
      exact .ended (.cleaned hrun rfl hentry hname hruns
        (fun token hm => (hc token).trans (Controller.isCancelled_raise? _ hm)) rfl)
    | cleaning _ hentry hname =>
      rw [Controller.tracker_raise?] at hruns
      exact .deleting hrun hentry hruns
        (fun token hm => (hc token).trans (Controller.isCancelled_raise? _ hm)) hname
  | inspecting hrun hclaimed hclaim hpod hanswer =>
    subst hclaim
    cases hr with
    | @adopt _ _ _ found =>
      have hfound : .ok found = s₀.getPod _ := hanswer _ rfl
      unfold Store.getPod at hfound
      split at hfound
      · rename_i hget
        exact .ended (.adopted hrun hclaimed.free (Run.podName_of_recordedPod? hpod).1
          (Run.phase_of_recordedPod? hpod) hget rfl (hruns.trans (hclaimed.committed _ _)))
      · cases hfound
    | adoptLate hnot =>
      rw [hclaimed.holds] at hnot
      cases hnot
    | redeploy =>
      exact .announcing hrun ⟨hclaimed.free, ht.trans hclaimed.tracker⟩ rfl rfl rfl (.of_reading rfl)
    | uninspected => exact .ended (.failed (hruns.trans hclaimed.release) rfl)
  | announcing hrun hclaimed hclaim hpods hkey hu =>
    subst hclaim
    have hstill : Claimed key d₀ d' → Claimed key d₀ left :=
      fun h => ⟨h.free, ht.trans h.tracker⟩
    cases hr with
    | announcing hgoing =>
      exact .announcing hrun (hstill hclaimed) rfl hpods
        ((StatusUpdate.key_going hgoing).trans hkey) (hu.resume hgoing)
    | deploy _ hpod =>
      have hbuilt := Job.forRun_key hpod
      rw [hsound.keyed hrun] at hbuilt
      exact .creating hrun (hstill ⟨hclaimed.free, hclaimed.tracker⟩) rfl hpods hbuilt
        (Job.forRun_owners hpod)
    | unbuilt =>
      exact .excusing (hstill ⟨hclaimed.free, hclaimed.tracker⟩) rfl hpods rfl (.of_reading rfl)
    | unannounced => exact .ended (.failed (hruns.trans hclaimed.release) hpods)
  | created hrun hclaimed hclaim hfree hpods howners =>
    subst hclaim
    cases hr with
    | commit =>
      exact .recording (.started hrun hclaimed.free hfree hpods howners
        (hruns.trans (hclaimed.committed _ _))) rfl (.of_reading rfl)
    | commitLate hnot =>
      rw [hclaimed.holds] at hnot
      cases hnot
  | rejected hclaimed hclaim hpods =>
    cases hr with
    | rejected =>
      exact .excusing ⟨hclaimed.free, ht.trans hclaimed.tracker⟩ hclaim hpods rfl (.of_reading rfl)
  | excusing hclaimed hclaim hpods hkey hu =>
    subst hclaim
    cases hr with
    | excusing hgoing =>
      exact .excusing ⟨hclaimed.free, ht.trans hclaimed.tracker⟩ rfl hpods
        ((StatusUpdate.key_going hgoing).trans hkey) (hu.resume hgoing)
    | excused => exact .ended (.deployFailed (hruns.trans hclaimed.release) hpods)
  | recording hdone hkey hu =>
    cases hr with
    | recording hgoing =>
      exact .recording (hdone.congr ht hc) ((StatusUpdate.key_going hgoing).trans hkey)
        (hu.resume hgoing)
    | recorded => exact .ended (hdone.congr ht hc)
  | deleted hdone =>
    cases hr with
    | deleted => exact .ended (hdone.congr ht hc)

theorem Standing.conduct {result : Except ClusterError Outcome}
    (h : Standing key s₀ d₀ owner told s d (.ended (.reconciled result))) :
    Conduct key d₀ s₀ d s result := by
  cases h with
  | ended hdone => exact hdone

/-! ## A whole reconciliation -/

/-- What a step of a reconciliation does to its controller. A failure is noted there besides. -/
theorem resume_reconcile {cs : List Controller} (hd : cs[owner]? = some d) (now : Instant)
    (told : Option Nat) (stage : Reconcile.Stage) (event : (Reconcile.mk key stage).wait.Event) :
    ∃ d' left turn, Reconcile.Resumes d now key stage event d' turn ∧
      left.tracker = d'.tracker ∧ (∀ token, left.isCancelled token = d'.isCancelled token) ∧
      ((Work.reconcile owner told ⟨key, stage⟩).resume cs now event).controllers =
        cs.set owner left ∧
      ((Work.reconcile owner told ⟨key, stage⟩).resume cs now event).next =
        Operator.turned owner told turn := by
  simp only [Work.resume, hd]
  rcases hr : Reconcile.resume d now ⟨key, stage⟩ event with ⟨d', turn⟩
  have hr' := Reconcile.resumes hr
  cases turn with
  | going r => exact ⟨d', d', _, hr', rfl, fun _ => rfl, rfl, rfl⟩
  | ended result m =>
    cases result with
    | ok outcome => exact ⟨d', d', _, hr', rfl, fun _ => rfl, rfl, rfl⟩
    | error e =>
      cases told with
      | none => exact ⟨d', d', _, hr', rfl, fun _ => rfl, rfl, rfl⟩
      | some number => exact ⟨d', d'.fail number key, _, hr', rfl, fun _ => rfl, rfl, rfl⟩

variable {t t' : Site} {history : List (Site × Move)} {id : Nat}

/-- Where a reconciliation stands that is left alone. -/
theorem standing (h : Execution (Undisturbed id) t history t') (hsound : t.store.Sound)
    (hd : t.operator.controllers[owner]? = some d)
    (hstart : t.operator.progress? id =
      some (.waiting (.reconcile owner told (.start key)) none)) :
    ∃ p, t'.operator.progress? id = some p ∧ t'.store.Sound ∧ t.store.Touches t'.store key ∧
      ∃ d', t'.operator.controllers[owner]? = some d' ∧
        Standing key t.store d owner told t'.store d' p := by
  refine undisturbed_induction
    (P := fun s cs p => s.Sound ∧ t.store.Touches s key ∧ ∃ d', cs[owner]? = some d' ∧
      Standing key t.store d owner told s d' p) h hstart ?_ ?_ ?_
  · exact ⟨hsound, Store.touches_of_runs rfl _, d, hd, .fetching⟩
  · intro s s' cs work event ⟨hs, htouches, d', hd', hstanding⟩ hserves
    obtain ⟨hnow, htouched⟩ := hstanding.receive hs hserves
    exact ⟨hs.changes (hserves.answers.rewrites.changes hs), htouches.trans htouched, d', hd', hnow⟩
  · intro s cs now work event ⟨hs, htouches, d', hd', hstanding⟩
    obtain ⟨stage, rfl⟩ := hstanding.work_eq
    obtain ⟨_, left, turn, hr, ht, hc, hcs, hnext⟩ := resume_reconcile hd' now told stage event
    have hlen : owner < cs.length := (List.getElem?_eq_some_iff.mp hd').1
    rw [hcs, hnext]
    exact ⟨hs, htouches, left, List.getElem?_set_self hlen, hstanding.resume hsound hr ht hc⟩

/-- A reconciliation whose controller does not exist returns nothing. -/
theorem uncontrolled (h : Execution (Undisturbed id) t history t')
    (hd : t.operator.controllers[owner]? = none)
    (hstart : t.operator.progress? id =
      some (.waiting (.reconcile owner told (.start key)) none))
    {result : Except ClusterError Outcome} :
    t'.operator.progress? id ≠ some (.ended (.reconciled result)) := by
  have hidle := undisturbed_induction
    (P := fun _ cs p => cs[owner]? = none ∧
      ((∃ answer, p = .waiting (.reconcile owner told (.start key)) answer) ∨ p = .ended .done))
    h hstart ⟨hd, .inl ⟨none, rfl⟩⟩
    (by
      rintro s s' cs work event ⟨hnone, ⟨answer, he⟩ | he⟩ _
      · cases he
        exact ⟨hnone, .inl ⟨some event, rfl⟩⟩
      · cases he)
    (by
      rintro s cs now work event ⟨hnone, ⟨answer, he⟩ | he⟩
      · cases he
        simp only [Work.resume, hnone]
        exact ⟨trivial, .inr rfl⟩
      · cases he)
  obtain ⟨p, hp, _, ⟨answer, rfl⟩ | rfl⟩ := hidle
  · rw [hp]
    intro he
    cases he
  · rw [hp]
    intro he
    cases he

/-- What a reconciliation does that is left alone, by its outcome. No run but its own is touched, and
no run's specification. -/
theorem conducts (h : Execution (Undisturbed id) t history t') (hsound : t.store.Sound)
    (hstart : t.operator.progress? id =
      some (.waiting (.reconcile owner told (.start key)) none))
    {result : Except ClusterError Outcome}
    (hend : t'.operator.progress? id = some (.ended (.reconciled result))) :
    ∃ d d', t.operator.controllers[owner]? = some d ∧
      t'.operator.controllers[owner]? = some d' ∧ Conduct key d t.store d' t'.store result ∧
      t.store.Touches t'.store key := by
  cases hd : t.operator.controllers[owner]? with
  | none => exact absurd hend (uncontrolled h hd hstart)
  | some d =>
    obtain ⟨p, hp, _, htouches, d', hd', hstanding⟩ := standing h hsound hd hstart
    rw [hend] at hp
    cases hp
    exact ⟨d, d', rfl, hd', hstanding.conduct, htouches⟩

def applied : Site := (play (Sample.opening "first" ++ [.reconcile 0 Sample.key])).2

/-- The run gets a pod. -/
theorem conducts_applied :
    applied.store.Sound ∧
    applied.operator.progress? 0 =
      some (.waiting (.reconcile 0 none (.start Sample.key)) none) ∧
    ∃ history t' d d', Execution (Undisturbed 0) applied history t' ∧
      t'.operator.outcome? 0 = some (.started (Job.podName 1)) ∧
      applied.operator.controllers[0]? = some d ∧ t'.operator.controllers[0]? = some d' ∧
      Conduct Sample.key d applied.store d' t'.store (.ok (.started (Job.podName 1))) := by
  have hsound : applied.store.Sound := sound (play_execution _)
  have hstart : applied.operator.progress? 0 =
      some (.waiting (.reconcile 0 none (.start Sample.key)) none) := rfl
  have halone := @playOn_undisturbed 0 applied (Sample.exchanges 0 6) (by decide)
  have houtcome : (applied.playOn (Sample.exchanges 0 6)).2.operator.outcome? 0 =
      some (.started (Job.podName 1)) := by decide +kernel
  obtain ⟨d, d', hd, hd', hconduct, _⟩ :=
    conducts halone hsound hstart (Operator.outcome?_eq_some.mp houtcome)
  exact ⟨hsound, hstart, _, _, d, d', halone, houtcome, hd, hd', hconduct⟩

end Site

end CertRuns
