import CertRuns.Control.Reconcile
import CertRuns.Proofs.Control.Tracker

/-!
# What a step of a reconciliation can do

* `Reconcile.Resumes c now key stage event c' turn` : all that can come of a reconciliation for
  `key` at `stage` that is given `event`, one constructor for each way through the code with the
  conditions under which it is taken;
* `Reconcile.resumes` : what `Reconcile.resume` does is one of these;
* `Reconcile.Stage.busy` : a reconciliation is getting a pod for its run;
* `Reconcile.found?` : the pod that a reconciliation has got hold of.

Later proofs about reconciliations are case analyses on `Reconcile.Resumes`.
-/

namespace CertRuns

namespace Controller

/-! ## Parts of a controller after an operation -/

variable (c : Controller)

@[simp] theorem tracker_withTracker (t : Tracker) : (c.withTracker t).tracker = t := rfl

@[simp] theorem tokens_withTracker (t : Tracker) : (c.withTracker t).tokens = c.tokens := rfl

@[simp] theorem tracker_raise? (token : Option Token) : (c.raise? token).tracker = c.tracker := by
  cases token <;> rfl

@[simp] theorem tokens_raise? (token : Option Token) : (c.raise? token).tokens = c.tokens := by
  cases token <;> rfl

@[simp] theorem tracker_sawPodName (name : String) :
    (c.sawPodName name).tracker = c.tracker := by
  unfold sawPodName
  split <;> rfl

@[simp] theorem tokens_sawPodName (name : String) : (c.sawPodName name).tokens = c.tokens := by
  unfold sawPodName
  split <;> rfl

@[simp] theorem tracker_mint : c.mint.1.tracker = c.tracker := rfl

@[simp] theorem tokens_mint : c.mint.1.tokens = c.tokens + 1 := rfl

@[simp] theorem mint_snd : c.mint.2 = ⟨c.tokens⟩ := rfl

@[simp] theorem tracker_nextPodNumber : c.nextPodNumber.1.tracker = c.tracker := rfl

@[simp] theorem tokens_nextPodNumber : c.nextPodNumber.1.tokens = c.tokens := rfl

end Controller

namespace Reconcile

def Stage.claim? : Stage → Option RunClaim
  | .inspecting _ claim _ => some claim
  | .announcing _ claim _ => some claim
  | .creating _ claim _ _ => some claim
  | .excusing claim _ _ => some claim
  | _ => none

/-- Is the reconciliation getting a pod for its run? It does so from its claim on, until the pod is
recorded or given up. -/
def Stage.busy : Stage → Bool
  | .fetching | .deleting _ => false
  | _ => true

theorem Stage.busy_of_claim? {stage : Stage} {claim : RunClaim} (h : stage.claim? = some claim) :
    stage.busy = true := by
  cases stage with
  | fetching | deleting => cases h
  | _ => rfl

/-- The pod that a reconciliation gets hold of: it has created it, or has found the one that the run's
status names. -/
def found? (key : ObjectKey) :
    (stage : Stage) → (Reconcile.mk key stage).wait.Event → Option ObjectKey
  | .creating _ _ podName _, .ok _ => some ⟨key.ns, podName⟩
  | .inspecting _ _ pod, .ok _ => some pod
  | _, _ => none

/-- All that can come of a step of a reconciliation. -/
inductive Resumes (c : Controller) (now : Instant) (key : ObjectKey) :
    (stage : Stage) → (Reconcile.mk key stage).wait.Event → Controller → Turn → Prop
  /-- The run is gone and was not tracked. -/
  | absent {e : ClusterError} (he : e.isNotFound = true)
      (hentry : c.tracker.runs.get? key = none) :
      Resumes c now key .fetching (.error e) c (.ended (.ok .absent) none)
  /-- The run is gone; its entry, which had no pod yet, is removed. -/
  | dropped {e : ClusterError} {run : TrackedRun} (he : e.isNotFound = true)
      (hentry : c.tracker.runs.get? key = some run) (hpod : run.podName = none) :
      Resumes c now key .fetching (.error e)
        ((c.withTracker (c.tracker.without key)).raise? run.cancel)
        (.ended (.ok (.cleaned none)) none)
  /-- The run is gone; its entry is removed and its pod will be deleted. -/
  | cleaning {e : ClusterError} {run : TrackedRun} {podName : String} (he : e.isNotFound = true)
      (hentry : c.tracker.runs.get? key = some run) (hpod : run.podName = some podName) :
      Resumes c now key .fetching (.error e)
        ((c.withTracker (c.tracker.without key)).raise? run.cancel)
        (.going ⟨key, .deleting ⟨key.ns, podName⟩⟩)
  /-- The run could not be read. -/
  | unread {e : ClusterError} (he : e.isNotFound = false) :
      Resumes c now key .fetching (.error e) c (.ended (.error e) none)
  /-- The run is tracked already. -/
  | refused {run : Run} {entry : TrackedRun} (hentry : c.tracker.runs.get? key = some entry) :
      Resumes c now key .fetching (.ok run) c (.ended (.ok .alreadyTracked) none)
  /-- The run is claimed; its status names a pod, which is looked up. -/
  | inspect {run : Run} {podName : String} (hentry : c.tracker.runs.get? key = none)
      (hpod : run.recordedPod? = some podName) :
      Resumes c now key .fetching (.ok run) (c.withTracker (c.tracker.claimed key))
        (.going ⟨key, .inspecting run ⟨key, c.tracker.claims + 1⟩ ⟨key.ns, podName⟩⟩)
  /-- The run is claimed and will be deployed. -/
  | announce {run : Run} (hentry : c.tracker.runs.get? key = none)
      (hpod : run.recordedPod? = none) :
      Resumes c now key .fetching (.ok run) (c.withTracker (c.tracker.claimed key))
        (.going ⟨key, .announcing run ⟨key, c.tracker.claims + 1⟩
          (.setPhase key c.retry .deploying)⟩)
  /-- The recorded pod is adopted. -/
  | adopt {run : Run} {claim : RunClaim} {pod : ObjectKey} {found : Pod}
      (hclaim : c.tracker.holds claim = true) :
      Resumes c now key (.inspecting run claim pod) (.ok found)
        ((c.sawPodName pod.name).mint.1.withTracker
          (c.tracker.committed claim pod.name ⟨c.tokens⟩))
        (.ended (.ok (.adopted pod.name))
          (some (.start (c.sawPodName pod.name).mint.1 now run pod ⟨c.tokens⟩)))
  /-- The run was removed before its recorded pod could be adopted; the pod will be deleted. -/
  | adoptLate {run : Run} {claim : RunClaim} {pod : ObjectKey} {found : Pod}
      (hclaim : c.tracker.holds claim = false) :
      Resumes c now key (.inspecting run claim pod) (.ok found)
        ((c.sawPodName pod.name).mint.1.withTracker c.tracker)
        (.going ⟨key, .deleting pod⟩)
  /-- The recorded pod is gone; the run will be deployed again. -/
  | redeploy {run : Run} {claim : RunClaim} {pod : ObjectKey} {e : ClusterError}
      (he : e.isNotFound = true) :
      Resumes c now key (.inspecting run claim pod) (.error e) c
        (.going ⟨key, .announcing run claim (.setPhase key c.retry .deploying)⟩)
  /-- The recorded pod could not be looked up; the claim is given back. -/
  | uninspected {run : Run} {claim : RunClaim} {pod : ObjectKey} {e : ClusterError}
      (he : e.isNotFound = false) :
      Resumes c now key (.inspecting run claim pod) (.error e)
        (c.withTracker (c.tracker.release claim)) (.ended (.error e) none)
  /-- The deploying phase is still being written. -/
  | announcing {run : Run} {claim : RunClaim} {u u' : StatusUpdate} {event : u.wait.Event}
      (hu : u.resume now event = .going u') :
      Resumes c now key (.announcing run claim u) event c (.going ⟨key, .announcing run claim u'⟩)
  /-- The pod is built under a fresh name and will be created. -/
  | deploy {run stored : Run} {claim : RunClaim} {u : StatusUpdate} {event : u.wait.Event}
      {pod : Pod} (hu : u.resume now event = .ended (.ok stored))
      (hpod : Job.forRun run (Job.podName (c.podCounter + 1)) c.settings.sidecarImage
        c.settings.runnerImage = .ok pod) :
      Resumes c now key (.announcing run claim u) event c.nextPodNumber.1
        (.going ⟨key, .creating run claim (Job.podName (c.podCounter + 1)) pod⟩)
  /-- The pod cannot be built. -/
  | unbuilt {run stored : Run} {claim : RunClaim} {u : StatusUpdate} {event : u.wait.Event}
      {e : Job.MissingContainer} (hu : u.resume now event = .ended (.ok stored))
      (hpod : Job.forRun run (Job.podName (c.podCounter + 1)) c.settings.sidecarImage
        c.settings.runnerImage = .error e) :
      Resumes c now key (.announcing run claim u) event c.nextPodNumber.1
        (.going ⟨key, .excusing claim e.message (.setPhase key c.retry .deployError)⟩)
  /-- The deploying phase could not be written; the claim is given back. -/
  | unannounced {run : Run} {claim : RunClaim} {u : StatusUpdate} {event : u.wait.Event}
      {e : ClusterError} (hu : u.resume now event = .ended (.error e)) :
      Resumes c now key (.announcing run claim u) event
        (c.withTracker (c.tracker.release claim)) (.ended (.error e) none)
  /-- The created pod is committed and will be recorded. -/
  | commit {run : Run} {claim : RunClaim} {podName : String} {pod stored : Pod}
      (hclaim : c.tracker.holds claim = true) :
      Resumes c now key (.creating run claim podName pod) (.ok stored)
        (c.mint.1.withTracker (c.tracker.committed claim podName ⟨c.tokens⟩))
        (.going ⟨key, .recording run podName ⟨c.tokens⟩ (.start key c.retry fun s =>
          { s with phase := .running, podName := some podName })⟩)
  /-- The run was removed before its pod was created; the pod will be deleted. -/
  | commitLate {run : Run} {claim : RunClaim} {podName : String} {pod stored : Pod}
      (hclaim : c.tracker.holds claim = false) :
      Resumes c now key (.creating run claim podName pod) (.ok stored)
        (c.mint.1.withTracker c.tracker)
        (.going ⟨key, .deleting ⟨key.ns, podName⟩⟩)
  /-- The pod was not created. -/
  | rejected {run : Run} {claim : RunClaim} {podName : String} {pod : Pod} {e : ClusterError} :
      Resumes c now key (.creating run claim podName pod) (.error e) c
        (.going ⟨key, .excusing claim e.message (.setPhase key c.retry .deployError)⟩)
  /-- The failure is still being written. -/
  | excusing {claim : RunClaim} {reason : String} {u u' : StatusUpdate} {event : u.wait.Event}
      (hu : u.resume now event = .going u') :
      Resumes c now key (.excusing claim reason u) event c (.going ⟨key, .excusing claim reason u'⟩)
  /-- The failure is written, or could not be; the claim is given back. -/
  | excused {claim : RunClaim} {reason : String} {u : StatusUpdate} {event : u.wait.Event}
      {result : Except ClusterError Run} (hu : u.resume now event = .ended result) :
      Resumes c now key (.excusing claim reason u) event
        (c.withTracker (c.tracker.release claim)) (.ended (.ok (.deployFailed reason)) none)
  /-- The pod is still being recorded. -/
  | recording {run : Run} {podName : String} {token : Token} {u u' : StatusUpdate}
      {event : u.wait.Event} (hu : u.resume now event = .going u') :
      Resumes c now key (.recording run podName token u) event c
        (.going ⟨key, .recording run podName token u'⟩)
  /-- The pod is recorded, or could not be; its monitor starts. -/
  | recorded {run : Run} {podName : String} {token : Token} {u : StatusUpdate}
      {event : u.wait.Event} {result : Except ClusterError Run}
      (hu : u.resume now event = .ended result) :
      Resumes c now key (.recording run podName token u) event c
        (.ended (.ok (.started podName)) (some (.start c now run ⟨key.ns, podName⟩ token)))
  /-- The pod is deleted, or could not be. -/
  | deleted {pod : ObjectKey} {reply : Except ClusterError Unit} :
      Resumes c now key (.deleting pod) reply c (.ended (.ok (.cleaned (some pod.name))) none)

/-! ## Every step is one of these -/

section
variable {c c' : Controller} {now : Instant} {key : ObjectKey} {turn : Turn}

theorem afterFetch_resumes {reply : Except ClusterError Run}
    (h : (Reconcile.mk key .fetching).afterFetch c reply = (c', turn)) :
    Resumes c now key .fetching reply c' turn := by
  cases reply with
  | error e =>
    simp only [afterFetch] at h
    cases he : e.isNotFound with
    | false =>
      rw [he, if_neg Bool.false_ne_true] at h
      cases h
      exact .unread he
    | true =>
      rw [he, if_pos rfl, cleanUp] at h
      cases hentry : c.tracker.runs.get? key with
      | none =>
        rw [Tracker.remove_eq_none hentry] at h
        cases h
        exact .absent he hentry
      | some run =>
        simp only [Tracker.remove_eq_some hentry] at h
        cases hpod : run.podName with
        | none =>
          rw [hpod] at h
          cases h
          exact .dropped he hentry hpod
        | some podName =>
          rw [hpod] at h
          cases h
          exact .cleaning he hentry hpod
  | ok run =>
    simp only [afterFetch] at h
    cases hentry : c.tracker.runs.get? key with
    | some entry =>
      rw [Tracker.claim_eq_none hentry] at h
      cases h
      exact .refused hentry
    | none =>
      simp only [Tracker.claim_eq_some hentry] at h
      cases hpod : run.recordedPod? with
      | some podName =>
        rw [hpod] at h
        cases h
        exact .inspect hentry hpod
      | none =>
        rw [hpod] at h
        cases h
        exact .announce hentry hpod

theorem afterInspect_resumes {run : Run} {claim : RunClaim} {pod : ObjectKey}
    {reply : Except ClusterError Pod}
    (h : (Reconcile.mk key (.inspecting run claim pod)).afterInspect c now run claim pod reply =
      (c', turn)) :
    Resumes c now key (.inspecting run claim pod) reply c' turn := by
  cases reply with
  | error e =>
    simp only [afterInspect] at h
    cases he : e.isNotFound with
    | false =>
      rw [he, if_neg Bool.false_ne_true] at h
      cases h
      exact .uninspected he
    | true =>
      rw [he, if_pos rfl] at h
      cases h
      exact .redeploy he
  | ok found =>
    simp only [afterInspect, adopt] at h
    rw [Controller.tracker_mint, Controller.tracker_sawPodName, Controller.mint_snd,
      Controller.tokens_sawPodName] at h
    cases hclaim : c.tracker.holds claim with
    | false =>
      rw [Tracker.commit_of_not_holds hclaim] at h
      cases h
      exact .adoptLate hclaim
    | true =>
      rw [Tracker.commit_of_holds hclaim] at h
      cases h
      exact .adopt hclaim

theorem afterAnnounce_resumes {run : Run} {claim : RunClaim} {u : StatusUpdate}
    {event : u.wait.Event}
    (h : (Reconcile.mk key (.announcing run claim u)).afterAnnounce c run claim
      (u.resume now event) = (c', turn)) :
    Resumes c now key (.announcing run claim u) event c' turn := by
  cases hu : u.resume now event with
  | going u' =>
    rw [hu] at h
    cases h
    exact .announcing hu
  | ended result =>
    rw [hu] at h
    cases result with
    | error e =>
      cases h
      exact .unannounced hu
    | ok stored =>
      simp only [afterAnnounce, deploy, Controller.nextPodNumber] at h
      cases hpod : Job.forRun run (Job.podName (c.podCounter + 1)) c.settings.sidecarImage
          c.settings.runnerImage with
      | ok pod =>
        rw [hpod] at h
        cases h
        exact .deploy hu hpod
      | error e =>
        rw [hpod] at h
        cases h
        exact .unbuilt hu hpod

theorem afterCreate_resumes {run : Run} {claim : RunClaim} {podName : String} {pod : Pod}
    {reply : Except ClusterError Pod}
    (h : (Reconcile.mk key (.creating run claim podName pod)).afterCreate c run claim podName
      reply = (c', turn)) :
    Resumes c now key (.creating run claim podName pod) reply c' turn := by
  cases reply with
  | error e =>
    cases h
    exact .rejected
  | ok stored =>
    simp only [afterCreate, commitCreated] at h
    rw [Controller.tracker_mint, Controller.mint_snd] at h
    cases hclaim : c.tracker.holds claim with
    | false =>
      rw [Tracker.commit_of_not_holds hclaim] at h
      cases h
      exact .commitLate hclaim
    | true =>
      rw [Tracker.commit_of_holds hclaim] at h
      cases h
      exact .commit hclaim

theorem afterExcuse_resumes {claim : RunClaim} {reason : String} {u : StatusUpdate}
    {event : u.wait.Event}
    (h : (Reconcile.mk key (.excusing claim reason u)).afterExcuse c claim reason
      (u.resume now event) = (c', turn)) :
    Resumes c now key (.excusing claim reason u) event c' turn := by
  cases hu : u.resume now event with
  | going u' =>
    rw [hu] at h
    cases h
    exact .excusing hu
  | ended result =>
    rw [hu] at h
    cases h
    exact .excused hu

theorem afterRecord_resumes {run : Run} {podName : String} {token : Token} {u : StatusUpdate}
    {event : u.wait.Event}
    (h : (Reconcile.mk key (.recording run podName token u)).afterRecord c now run podName token
      (u.resume now event) = (c', turn)) :
    Resumes c now key (.recording run podName token u) event c' turn := by
  cases hu : u.resume now event with
  | going u' =>
    rw [hu] at h
    cases h
    exact .recording hu
  | ended result =>
    rw [hu] at h
    cases h
    exact .recorded hu

theorem resumes {stage : Stage} {event : (Reconcile.mk key stage).wait.Event}
    (h : Reconcile.resume c now ⟨key, stage⟩ event = (c', turn)) :
    Resumes c now key stage event c' turn := by
  cases stage with
  | fetching => exact afterFetch_resumes h
  | inspecting run claim pod => exact afterInspect_resumes h
  | announcing run claim u => exact afterAnnounce_resumes h
  | creating run claim podName pod => exact afterCreate_resumes h
  | excusing claim reason u => exact afterExcuse_resumes h
  | recording run podName token u => exact afterRecord_resumes h
  | deleting pod =>
    cases h
    exact .deleted

/-- A reconciliation stays with its run. -/
theorem Resumes.key_going {stage : Stage} {event : (Reconcile.mk key stage).wait.Event}
    {r : Reconcile} (h : Resumes c now key stage event c' (.going r)) : r.key = key := by
  cases h <;> rfl

/-- A step under a claim on the reconciled run leaves the entries of other runs alone. -/
theorem Resumes.get?_other {stage : Stage} {event : (Reconcile.mk key stage).wait.Event}
    (h : Resumes c now key stage event c' turn)
    (hc : ∀ claim, stage.claim? = some claim → claim.key = key) {k : ObjectKey} (hk : k ≠ key) :
    c'.tracker.runs.get? k = c.tracker.runs.get? k := by
  cases h with
  | absent | unread | refused | adoptLate | redeploy | announcing | deploy | unbuilt
  | commitLate | rejected | excusing | recording | recorded | deleted => simp
  | dropped | cleaning => simp [Tracker.get?_without, hk]
  | inspect | announce => simp [Tracker.get?_claimed, hk]
  | adopt | commit => simp [Tracker.get?_committed, hc _ rfl, hk]
  | uninspected | unannounced | excused => simp [Tracker.get?_release, hc _ rfl, hk]

/-- The claim of a reconciliation that goes on is the one that it had, and then the tracker is as it
was, or it has just been granted. -/
theorem Resumes.claim_going {stage : Stage} {event : (Reconcile.mk key stage).wait.Event}
    {r : Reconcile} (h : Resumes c now key stage event c' (.going r)) {claim : RunClaim}
    (hc : r.stage.claim? = some claim) :
    stage.claim? = some claim ∧ c'.tracker = c.tracker ∨
      stage.claim? = none ∧ claim = ⟨key, c.tracker.claims + 1⟩ ∧
        c'.tracker = c.tracker.claimed key := by
  cases h with
  | inspect | announce =>
    cases hc
    exact .inr ⟨rfl, rfl, rfl⟩
  | redeploy | announcing | deploy | unbuilt | rejected | excusing =>
    cases hc
    exact .inl ⟨rfl, rfl⟩
  | cleaning | adoptLate | commit | commitLate | recording => cases hc

/-- A reconciliation that is getting a pod for its run has begun by making an entry for the run, and
keeps the entry as long as it goes on. -/
theorem Resumes.busy_going {stage : Stage} {event : (Reconcile.mk key stage).wait.Event}
    {r : Reconcile} (h : Resumes c now key stage event c' (.going r)) (hb : r.stage.busy = true) :
    stage.busy = true ∧
        ((c.tracker.runs.get? key).isSome = true → (c'.tracker.runs.get? key).isSome = true) ∨
      c.tracker.runs.get? key = none ∧ (c'.tracker.runs.get? key).isSome = true := by
  cases h with
  | inspect hentry | announce hentry => exact .inr ⟨hentry, by simp [Tracker.get?_claimed]⟩
  | redeploy | announcing | deploy | unbuilt | rejected | excusing | recording =>
    exact .inl ⟨rfl, id⟩
  | commit =>
    refine .inl ⟨rfl, fun hsome => ?_⟩
    rw [Controller.tracker_withTracker, Tracker.get?_committed]
    split
    · rfl
    · exact hsome
  | cleaning | adoptLate | commitLate => cases hb

theorem Resumes.claims_le {stage : Stage} {event : (Reconcile.mk key stage).wait.Event}
    (h : Resumes c now key stage event c' turn) : c.tracker.claims ≤ c'.tracker.claims := by
  cases h with
  | inspect | announce => exact Nat.le_succ _
  | uninspected | unannounced | excused => exact Nat.le_of_eq (Tracker.claims_release _ _).symm
  | dropped | cleaning =>
    refine Nat.le_of_eq ?_
    rw [Controller.tracker_raise?, Controller.tracker_withTracker]
    rfl
  | _ => exact Nat.le_refl _

theorem Resumes.tokens_le {stage : Stage} {event : (Reconcile.mk key stage).wait.Event}
    (h : Resumes c now key stage event c' turn) : c.tokens ≤ c'.tokens := by
  cases h with
  | adopt | adoptLate | commit | commitLate => simp
  | dropped | cleaning =>
    refine Nat.le_of_eq ?_
    rw [Controller.tokens_raise?, Controller.tokens_withTracker]
  | _ => exact Nat.le_refl _

end

end Reconcile

end CertRuns
