import CertRuns.Proofs.Operator.Entries

/-!
# Commits of claims

A claim is committed at most once, and its entry then gets a token that no other commit has. So a
token stands for a commit, and the entry of a commit stays as it is until the run is cleaned up
after, except that it may be completed.

* `claim?` : the claim that a task works under; `Claims` : where it comes from;
* `SoundClaims` : no two tasks work under one claim, and its entry has no token yet;
* `cleaned` : the entry with a token was removed because the run was gone;
* `SoundTokens` : tokens are not handed out twice;
* `Held` : a commit is in force, or was cleaned up after; kept by every move (`Held.step`);
* `commit?` : the pod and the token of the commit that a monitor was started for;
* `Attends` : a task records the pod of a commit, or monitors it.
-/

namespace CertRuns.Operator

open Rehearsal (Work)

variable {c c' : Operator} {m : Move} {owner i : Nat} {key : ObjectKey} {claim : RunClaim}
  {token : Token} {podName : String} {history : List (Operator × Move)}

/-! ## Claims that tasks work under -/

def claim? (c : Operator) (owner id : Nat) : Option RunClaim :=
  match c.progress? id with
  | some (.waiting (.reconcile o _ r) _) => if o = owner then r.stage.claim? else none
  | _ => none

theorem claim?_eq_some : c.claim? owner i = some claim ↔ ∃ told r answer,
    c.progress? i = some (.waiting (.reconcile owner told r) answer) ∧
      r.stage.claim? = some claim := by
  constructor
  · intro h
    unfold claim? at h
    split at h
    · rename_i hw
      split at h
      · rename_i ho
        subst ho
        exact ⟨_, _, _, hw, h⟩
      · cases h
    · cases h
  · rintro ⟨told, r, answer, hw, hc⟩
    unfold claim?
    rw [hw]
    exact (if_pos rfl).trans hc

/-- A reconciliation that goes on works under its claim. -/
theorem claim?_of_resume {id : Nat} {told : Option Nat} {stage : Reconcile.Stage}
    {event : (Reconcile.mk key stage).wait.Event}
    (h : c.Step (.resume id (.reconcile owner told ⟨key, stage⟩) event) c')
    (hc : stage.claim? = some claim) : c.claim? owner id = some claim :=
  claim?_eq_some.mpr ⟨told, ⟨key, stage⟩, some event, h.1, hc⟩

/-- Where the claim of a task after a move comes from. -/
inductive Claims (c : Operator) (owner i : Nat) (claim : RunClaim) (c' : Operator) (m : Move) : Prop
  /-- The task has not moved. -/
  | kept (hm : m.subject? ≠ some i) (h : c.claim? owner i = some claim)
  /-- The task has gone on under it. -/
  | carried (h : c.claim? owner i = some claim) (ht : c'.tracker owner = c.tracker owner)
  /-- It has just been granted. -/
  | granted (hm : m.subject? = some i) (hn : claim.number = (c.tracker owner).claims + 1)
      (ht : c'.tracker owner = (c.tracker owner).claimed claim.key)
      (hb : c.claim? owner i = none)

theorem Step.claims (h : c.Step m c') (hc : c'.claim? owner i = some claim) :
    Claims c owner i claim c' m := by
  obtain ⟨told, r, answer, hw, hclaim⟩ := claim?_eq_some.mp hc
  have hhandles := h.handles owner
  cases h.waits hw with
  | kept hm hbefore => exact .kept hm (claim?_eq_some.mpr ⟨told, r, answer, hbefore, hclaim⟩)
  | received hbefore =>
    refine .carried (claim?_eq_some.mpr ⟨told, r, none, hbefore, hclaim⟩) ?_
    cases hhandles with
    | idle ht => exact ht
  | resumed hbefore hg =>
    cases hg with
    | @reconcile _ _ k stage event d d' d'' _ hd hr hcs htracker =>
      have hset : c'.tracker owner = d''.tracker :=
        (set_controller owner hd (h.controllers.trans hcs)).1.trans (if_pos rfl)
      rcases hr.claim_going hclaim with ⟨hold, hsame⟩ | ⟨hfree, rfl, hnew⟩
      · refine .carried (claim?_eq_some.mpr ⟨told, ⟨k, stage⟩, some event, hbefore, hold⟩) ?_
        rw [hset, htracker, hsame, tracker_eq hd]
      · refine .granted rfl ?_ ?_ ?_
        · rw [tracker_eq hd]
        · rw [hset, htracker, hnew, tracker_eq hd]
        · rw [claim?, hbefore]
          exact (if_pos rfl).trans hfree
  | started _ hm =>
    cases hm
    cases hclaim
  | spawned _ _ hs =>
    cases hs
    cases hclaim

/-! ## A claim is committed at most once -/

/-- No two tasks work under one claim, and the entry of a claim that a task works under has not been
committed. -/
structure SoundClaims (c : Operator) (owner : Nat) : Prop where
  number_le {i : Nat} {claim : RunClaim} (h : c.claim? owner i = some claim) :
    claim.number ≤ (c.tracker owner).claims
  unique {i j : Nat} {claim claim' : RunClaim} (hi : c.claim? owner i = some claim)
    (hj : c.claim? owner j = some claim') (hn : claim.number = claim'.number) : i = j
  uncommitted {i : Nat} {claim : RunClaim} {e : TrackedRun} (h : c.claim? owner i = some claim)
    (he : c.tracked? owner claim.key = some e) (hn : e.number = claim.number) : e.cancel = none

theorem SoundClaims.number_le_next (hc : SoundClaims c owner) (h : c.Step m c')
    (hi : c'.claim? owner i = some claim) : claim.number ≤ (c'.tracker owner).claims := by
  have hle := h.claims_le owner
  cases h.claims hi with
  | kept _ hi => exact Nat.le_trans (hc.number_le hi) hle
  | carried hi => exact Nat.le_trans (hc.number_le hi) hle
  | granted _ hn ht =>
    rw [hn, ht]
    exact Nat.le_refl _

/-- A claim that was there before, or the move has just granted it. -/
theorem Step.claim_cases (h : c.Step m c') (hi : c'.claim? owner i = some claim) :
    c.claim? owner i = some claim ∨
      m.subject? = some i ∧ claim.number = (c.tracker owner).claims + 1 := by
  cases h.claims hi with
  | kept _ hi => exact .inl hi
  | carried hi => exact .inl hi
  | granted hm hn => exact .inr ⟨hm, hn⟩

theorem SoundClaims.unique_next (hc : SoundClaims c owner) (h : c.Step m c') {j : Nat}
    {claim' : RunClaim} (hi : c'.claim? owner i = some claim)
    (hj : c'.claim? owner j = some claim') (hn : claim.number = claim'.number) : i = j := by
  rcases h.claim_cases hi with hi | ⟨hi, hni⟩ <;> rcases h.claim_cases hj with hj | ⟨hj, hnj⟩
  · exact hc.unique hi hj hn
  · have := hc.number_le hi
    omega
  · have := hc.number_le hj
    omega
  · rw [hi] at hj
    exact Option.some.inj hj

theorem SoundClaims.uncommitted_next (hc : SoundClaims c owner) (h : c.Step m c')
    (hown : OwnClaims c) {e : TrackedRun} (hi : c'.claim? owner i = some claim)
    (he : c'.tracked? owner claim.key = some e) (hn : e.number = claim.number) : e.cancel = none := by
  cases h.claims hi with
  | carried hi ht =>
    rw [tracked?, ht] at he
    exact hc.uncommitted hi he hn
  | granted hm hnumber ht =>
    rw [tracked?, ht, Tracker.get?_claimed, if_pos rfl] at he
    cases he
    rfl
  | kept hm hi =>
    cases h.alters hown owner claim.key with
    | same hentry =>
      rw [hentry] at he
      exact hc.uncommitted hi he hn
    | claimed _ hentry =>
      rw [hentry] at he
      cases he
      rfl
    | @committed id told stage event other _ _ hother _ _ hentry =>
      -- another task would have to work under the same claim
      rw [hentry] at he
      cases he
      exact absurd (congrArg some (hc.unique (claim?_of_resume h hother) hi hn)) hm
    | removed _ hentry | released _ _ _ hentry =>
      rw [hentry] at he
      cases he
    | completed hbefore hentry =>
      rw [hentry] at he
      cases he
      have hnone := hc.uncommitted hi hbefore hn
      exact hnone

theorem soundClaims (h : Execution Step {} history c) (owner : Nat) : SoundClaims c owner := by
  induction h with
  | start => exact ⟨nofun, nofun, nofun⟩
  | next before last ih =>
    exact ⟨ih.number_le_next last, ih.unique_next last, ih.uncommitted_next last (ownClaims before)⟩

/-! ## Tokens are handed out once -/

/-- The entry of the run with this token was removed because the run was gone. -/
def cleaned (owner : Nat) (key : ObjectKey) (token : Token) (history : List (Operator × Move)) :
    Bool :=
  history.any fun moment =>
    cleans owner key moment && (moment.1.tracked? owner key).any (·.cancel == some token)

theorem cleaned_cons : cleaned owner key token ((c, m) :: history) = true ↔
    cleans owner key (c, m) = true ∧
        (∃ e, c.tracked? owner key = some e ∧ e.cancel = some token) ∨
      cleaned owner key token history = true := by
  unfold cleaned
  rw [List.any_cons, Bool.or_eq_true, Bool.and_eq_true, Option.any_eq_true]
  simp only [beq_iff_eq]

/-- The tokens of entries have been minted, and no entry has a token of one that is gone. -/
structure SoundTokens (c : Operator) (owner : Nat) (history : List (Operator × Move)) : Prop where
  minted {key : ObjectKey} {e : TrackedRun} {token : Token} (he : c.tracked? owner key = some e)
    (ht : e.cancel = some token) : token.id < c.tokens owner
  cleaned_lt {key : ObjectKey} {token : Token}
    (h : cleaned owner key token history = true) : token.id < c.tokens owner
  cleaned_ne {key : ObjectKey} {token : Token} {e : TrackedRun}
    (h : cleaned owner key token history = true) (he : c.tracked? owner key = some e) :
    e.cancel ≠ some token

/-- The token of an entry was there before, or the move has just minted it. -/
theorem Step.token_cases (h : c.Step m c') (hown : OwnClaims c) {e : TrackedRun}
    (he : c'.tracked? owner key = some e) (ht : e.cancel = some token) :
    (∃ e', c.tracked? owner key = some e' ∧ e'.cancel = some token) ∨
      token.id = c.tokens owner ∧ c'.tokens owner = c.tokens owner + 1 := by
  cases h.alters hown owner key with
  | same hentry => exact .inl ⟨e, hentry ▸ he, ht⟩
  | claimed _ hentry =>
    rw [hentry] at he
    cases he
    cases ht
  | committed _ _ _ hentry htokens =>
    rw [hentry] at he
    cases he
    cases ht
    exact .inr ⟨rfl, htokens⟩
  | removed _ hentry | released _ _ _ hentry =>
    rw [hentry] at he
    cases he
  | completed hbefore hentry =>
    rw [hentry] at he
    cases he
    exact .inl ⟨_, hbefore, ht⟩

theorem SoundTokens.step (hs : SoundTokens c owner history) (h : c.Step m c') (hown : OwnClaims c) :
    SoundTokens c' owner ((c, m) :: history) := by
  have hle := h.tokens_le owner
  refine ⟨fun he ht => ?_, fun hclean => ?_, fun hclean he ht => ?_⟩
  · rcases h.token_cases hown he ht with ⟨e', he', ht'⟩ | ⟨hid, hnext⟩
    · exact Nat.lt_of_lt_of_le (hs.minted he' ht') hle
    · omega
  · rcases cleaned_cons.mp hclean with ⟨_, e, he, ht⟩ | hclean
    · exact Nat.lt_of_lt_of_le (hs.minted he ht) hle
    · exact Nat.lt_of_lt_of_le (hs.cleaned_lt hclean) hle
  · rcases cleaned_cons.mp hclean with ⟨hclean, _⟩ | hclean
    · rw [h.tracked?_cleans hclean] at he
      cases he
    · have hlt := hs.cleaned_lt hclean
      rcases h.token_cases hown he ht with ⟨e', he', ht'⟩ | ⟨hid, _⟩
      · exact hs.cleaned_ne hclean he' ht'
      · omega

theorem soundTokens (h : Execution Step {} history c) (owner : Nat) :
    SoundTokens c owner history := by
  induction h with
  | start => exact ⟨nofun, nofun, nofun⟩
  | next before last ih => exact ih.step last (ownClaims before)

/-! ## A commit stays in force until it is cleaned up after -/

/-- The run has the pod and the token of a commit, or that entry was removed because the run was
gone. -/
def Held (c : Operator) (owner : Nat) (key : ObjectKey) (token : Token) (podName : String)
    (history : List (Operator × Move)) : Prop :=
  (∃ e, c.tracked? owner key = some e ∧ e.cancel = some token ∧ e.podName = some podName) ∨
    cleaned owner key token history = true

theorem Held.step (hheld : Held c owner key token podName history) (h : c.Step m c')
    (hown : OwnClaims c) (hclaims : SoundClaims c owner) :
    Held c' owner key token podName ((c, m) :: history) := by
  rcases hheld with ⟨e, he, htoken, hpod⟩ | hclean
  · have hover {id : Nat} {told : Option Nat} {stage : Reconcile.Stage}
        {event : (Reconcile.mk key stage).wait.Event} {claim : RunClaim} {e' : TrackedRun}
        (hm : m = .resume id (.reconcile owner told ⟨key, stage⟩) event)
        (hc : stage.claim? = some claim) (he' : c.tracked? owner key = some e')
        (hn : e'.number = claim.number) : False := by
      subst hm
      have hkey : claim.key = key := hown id _ _ h.1 claim hc
      rw [he] at he'
      cases he'
      have hnone := hclaims.uncommitted (claim?_of_resume h hc) (by rw [hkey]; exact he) hn
      rw [htoken] at hnone
      cases hnone
    cases h.alters hown owner key with
    | same hentry => exact .inl ⟨e, hentry.trans he, htoken, hpod⟩
    | claimed hnone =>
      rw [he] at hnone
      cases hnone
    | committed hc hbefore hn => exact (hover rfl hc hbefore hn).elim
    | removed hc => exact .inr (cleaned_cons.mpr (.inl ⟨hc, e, he, htoken⟩))
    | released hc hbefore hn => exact (hover rfl hc hbefore hn).elim
    | completed hbefore hentry =>
      rw [he] at hbefore
      cases hbefore
      exact .inl ⟨_, hentry, htoken, hpod⟩
  · exact .inr (cleaned_cons.mpr (.inr hclean))

/-- A commit is in force just when it was not cleaned up after. -/
theorem Held.iff (hheld : Held c owner key token podName history)
    (hs : SoundTokens c owner history) {e : TrackedRun} (he : c.tracked? owner key = some e) :
    e.cancel = some token ∧ e.podName = some podName ↔
      cleaned owner key token history = false := by
  constructor
  · rintro ⟨htoken, _⟩
    rw [Bool.eq_false_iff]
    exact fun hclean => hs.cleaned_ne hclean he htoken
  · intro hclean
    rcases hheld with ⟨e', he', htoken, hpod⟩ | h
    · rw [he] at he'
      cases he'
      exact ⟨htoken, hpod⟩
    · rw [hclean] at h
      cases h

/-! ## Tasks that attend to the pod of a commit -/

/-- The pod and the token of the commit that a monitor was started for. -/
def commit? (c : Operator) (id : Nat) : Option (String × Token) :=
  match (c.threads[id]?).map Thread.origin with
  | some (.monitor _ ⟨_, .waiting w⟩) => some (w.pod.name, w.token)
  | _ => none

/-- A task attends to the pod of a commit: it records it, or it was started to monitor it. -/
inductive Attends (c : Operator) (owner : Nat) (key : ObjectKey) (token : Token)
    (podName : String) : Prop
  | recording {id : Nat} {told : Option Nat} {run : Run} {u : StatusUpdate}
      {answer : Option u.wait.Event}
      (hw : c.progress? id =
        some (.waiting (.reconcile owner told ⟨key, .recording run podName token u⟩) answer))
  | monitoring {id : Nat} {x : Thread} {w : CompletionWait} (hx : c.threads[id]? = some x)
      (ho : x.origin = .monitor owner ⟨key, .waiting w⟩) (hp : w.pod.name = podName)
      (ht : w.token = token)

/-- The entry of the run is the one that a commit has just made. -/
def Commits (c : Operator) (owner : Nat) (key : ObjectKey) (token : Token) (podName : String) :
    Prop :=
  ∃ number, c.tracked? owner key = some ⟨number, some podName, some token, .running⟩

/-- The entry after a step that commits a claim. -/
theorem commits {d d' d'' : Controller}
    (hd : c.controllers[owner]? = some d) (hc : c'.controllers = c.controllers.set owner d'')
    (ht : d''.tracker = d'.tracker) (hd' : d'.tracker = d.tracker.committed claim podName token)
    (hkey : claim.key = key) : Commits c' owner key token podName := by
  obtain ⟨htracker, _⟩ := set_controller owner hd hc
  rw [if_pos rfl] at htracker
  refine ⟨claim.number, ?_⟩
  rw [tracked?, htracker, ht, hd', Tracker.get?_committed, if_pos hkey.symm]

end CertRuns.Operator
