import CertRuns.Proofs.Operator.Entries
import CertRuns.Proofs.Site.Creations
import CertRuns.Proofs.Site.Statuses

/-!
# Which pods runs are said to have

A status names a pod only after a reconciliation of this run has created it, and an entry names one
only then or after it was found in the status. So every pod that is named for a run was once created
for that run, as long as nobody else writes statuses.

* `Move.meddles` : somebody else than the operator writes a status;
* `Made` : a pod was created for a run under a name;
* `Work.Named` : the pods that a task knows of were created for its run;
* `Provenance` : so are all pods that statuses, tasks and entries name; `provenance` : this holds if
  nobody meddles.
-/

namespace CertRuns

open Rehearsal (Work)

/-- Somebody else than the operator writes a status: a user applies a run whose status is not blank, or
a change of a status that is none of the operator's is accepted. -/
def Move.meddles : Move → Bool
  | .receive _ (.update u) event => ((Work.update u).written? (some event)).isSome
  | .receive _ (.call (.updateRunStatus _)) (.ok _) => true
  | .outside (.applyRun _ run) => run.status != {}
  | _ => false

theorem Run.podName_of_recordedPod? {run : Run} {podName : String}
    (h : run.recordedPod? = some podName) : run.status.podName = some podName ∧ podName ≠ "" := by
  have hf : run.status.podName.filter (· ≠ "") = some podName := by
    unfold recordedPod? at h
    split at h
    · exact h
    · exact h
    · cases h
  obtain ⟨hp, hne⟩ := Option.filter_eq_some_iff.mp hf
  exact ⟨hp, of_decide_eq_true hne⟩

/-- The pods that a task knows of have been made for the run that it is about. -/
def Rehearsal.Work.Named (made : ObjectKey → String → Prop) :
    (work : Work) → Option work.wait.Event → Prop
  | .reconcile _ _ ⟨key, .fetching⟩, some (.ok run) =>
    ∀ podName, run.status.podName = some podName → made key podName
  | .reconcile _ _ ⟨key, .inspecting _ _ pod⟩, _ => pod.ns = key.ns ∧ made key pod.name
  | .reconcile _ _ ⟨key, .creating _ _ podName _⟩, some (.ok _) => made key podName
  | .reconcile _ _ ⟨key, .recording _ podName _ _⟩, _ => made key podName
  | _, _ => True

theorem Rehearsal.Work.Named.mono {made made' : ObjectKey → String → Prop} {work : Work}
    {answer : Option work.wait.Event} (h : work.Named made answer)
    (hmade : ∀ key podName, made key podName → made' key podName) : work.Named made' answer := by
  unfold Named at h ⊢
  split at h
  · exact fun podName hp => hmade _ _ (h podName hp)
  · exact ⟨h.1, hmade _ _ h.2⟩
  · exact hmade _ _ h
  · exact hmade _ _ h
  · trivial

namespace Site

variable {t t' : Site} {m : Move} {history : List (Site × Move)} {owner : Nat} {key : ObjectKey}
  {podName : String}

def Made (history : List (Site × Move)) (key : ObjectKey) (podName : String) : Prop :=
  ∃ moment ∈ history, ∃ owner, moment.2.creator? ⟨key.ns, podName⟩ = some (.reconciler owner key)

theorem Made.later {moment : Site × Move} (h : Made history key podName) :
    Made (moment :: history) key podName := by
  obtain ⟨m, hm, ho⟩ := h
  exact ⟨m, List.mem_cons_of_mem _ hm, ho⟩

/-- All pods that are named for a run were created for it. -/
structure Provenance (t : Site) (history : List (Site × Move)) : Prop where
  stored {key : ObjectKey} {r : Run} {podName : String} (hr : t.store.runs.get? key = some r)
    (hp : r.status.podName = some podName) : Made history key podName
  tasks {id : Nat} {work : Work} {answer : Option work.wait.Event}
    (hw : t.operator.progress? id = some (.waiting work answer)) : work.Named (Made history) answer
  entries {owner : Nat} {key : ObjectKey} {e : TrackedRun} {podName : String}
    (he : t.operator.tracked? owner key = some e) (hp : e.podName = some podName) :
    Made history key podName

/-- A pod that the status of a stored run names after a move was named before, or is just being
recorded. -/
theorem Step.recorded (h : Execution Step {} history t) (hs : t.Step m t')
    (hm : m.meddles = false) {r' : Run} (hr : t'.store.runs.get? key = some r')
    (hp : r'.status.podName = some podName) :
    (∃ r, t.store.runs.get? key = some r ∧ r.status.podName = some podName) ∨
      ∃ (id owner : Nat) (told : Option Nat) (run : Run) (token : Token) (u : StatusUpdate)
        (event : u.wait.Event),
        m = .receive id (.reconcile owner told ⟨key, .recording run podName token u⟩) event := by
  cases hs.status h hr with
  | kept hr hstatus => exact .inl ⟨_, hr, hstatus ▸ hp⟩
  | applied _ hstatus =>
    rw [hstatus, bne_eq_false_iff_eq.mp hm] at hp
    cases hp
  | called hreply =>
    subst hreply
    cases hm
  | @written id work event u r hw hk hr hstatus =>
    have hcomposes := Operator.composes (operator_execution h) hs.1.1.1
    rw [hstatus] at hp
    cases hcomposes.writes hw r.status with
    | update =>
      rw [Move.meddles, hw] at hm
      cases hm
    | announcing he | excusing he | monitor _ he | harvest he =>
      rw [he] at hp
      exact .inl ⟨r, hr, hp⟩
    | recording _ he =>
      rw [he] at hp
      cases hp
      have hkey : u.key = _ := (keyed h hs.1.1.1).2
      obtain rfl := hkey.symm.trans hk
      exact .inr ⟨_, _, _, _, _, _, _, rfl⟩

theorem Provenance.tasks_step (hp : Provenance t history) (h : Execution Step {} history t)
    (hs : t.Step m t') {id : Nat} {work : Work} {answer : Option work.wait.Event}
    (hw : t'.operator.progress? id = some (.waiting work answer)) :
    work.Named (Made ((t, m) :: history)) answer := by
  have later : ∀ key podName, Made history key podName → Made ((t, m) :: history) key podName :=
    fun _ _ => .later
  cases hs.1.waits hw with
  | kept _ hbefore => exact (hp.tasks hbefore).mono later
  | @received event hbefore _ he =>
    subst he
    have hnamed := (hp.tasks hbefore).mono later
    cases work with
    | reconcile owner told r =>
      obtain ⟨key, stage⟩ := r
      cases stage with
      | fetching =>
        cases event with
        | error e => trivial
        | ok run =>
          obtain ⟨hrun, _⟩ := Store.Answers.getRun_ok hs.2
          exact fun podName hpod => (hp.stored hrun hpod).later
      | creating run claim podName pod =>
        cases event with
        | error e => trivial
        | ok stored =>
          refine ⟨_, List.mem_cons_self, owner, ?_⟩
          exact if_pos (congrArg some (creating_key h hbefore))
      | _ => exact hnamed
    | _ => trivial
  | resumed hbefore hg he =>
    subst he
    have hnamed := (hp.tasks hbefore).mono later
    cases hg with
    | reconcile hd hr =>
      cases hr with
      | inspect _ hpod => exact ⟨rfl, hnamed _ (Run.podName_of_recordedPod? hpod).1⟩
      | commit | recording => exact hnamed
      | _ => trivial
    | _ => trivial
  | started _ hm he =>
    subst he
    cases hm <;> trivial
  | spawned _ _ hn he =>
    subst he
    cases hn <;> trivial

theorem Provenance.entries_step (hp : Provenance t history) (h : Execution Step {} history t)
    (hs : t.Step m t') {e : TrackedRun} (he : t'.operator.tracked? owner key = some e)
    (hpod : e.podName = some podName) : Made ((t, m) :: history) key podName := by
  have hoperator := operator_execution h
  cases hs.1.alters (Operator.ownClaims hoperator) owner key with
  | same hentry => exact (hp.entries (hentry ▸ he) hpod).later
  | claimed _ hentry =>
    rw [hentry] at he
    cases he
    cases hpod
  | @committed id told stage event claim _ pod _ _ _ hentry _ hf =>
    rw [hentry] at he
    cases he
    cases hpod
    have hnamed := hp.tasks hs.1.1
    cases stage with
    | inspecting =>
      cases event with
      | error e => cases hf
      | ok found =>
        cases hf
        exact hnamed.2.later
    | creating =>
      cases event with
      | error e => cases hf
      | ok stored =>
        cases hf
        exact Made.later hnamed
    | _ => cases hf
  | removed _ hentry | released _ _ _ hentry =>
    rw [hentry] at he
    cases he
  | completed hbefore hentry =>
    rw [hentry] at he
    cases he
    exact (hp.entries hbefore hpod).later

theorem Provenance.stored_step (hp : Provenance t history) (h : Execution Step {} history t)
    (hs : t.Step m t') (hm : m.meddles = false) {r : Run}
    (hr : t'.store.runs.get? key = some r) (hpod : r.status.podName = some podName) :
    Made ((t, m) :: history) key podName := by
  rcases hs.recorded h hm hr hpod with ⟨r, hr, hpod⟩ | ⟨id, owner, told, run, token, u, event, rfl⟩
  · exact (hp.stored hr hpod).later
  · exact Made.later (hp.tasks hs.1.1.1)

theorem provenance (h : Execution Step {} history t)
    (hm : ∀ moment ∈ history, moment.2.meddles = false) : Provenance t history := by
  induction h with
  | start => exact ⟨nofun, nofun, nofun⟩
  | next before last ih =>
    have hp := ih fun moment hmoment => hm moment (List.mem_cons_of_mem _ hmoment)
    exact ⟨hp.stored_step before last (hm _ List.mem_cons_self), hp.tasks_step before last,
      hp.entries_step before last⟩

end Site

end CertRuns
