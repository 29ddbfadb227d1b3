import CertRuns.Proofs.Cluster.Endings

/-!
# Versions in a store

A version is given out once. So a run that was read long ago and a stored run are the same as soon
as they carry the same version, whatever has happened in between: other writes, removals, runs that
were stored anew under the same key.

* `Changes` : what an operation does to the runs of a store;
* `Sound` : runs stand under their own keys, and no two carry the same version;
* `Later` : what is stored later is stored already or carries a later version;
* `Copy` : a run that was stored once; it remains one (`Copy.later`);
* `updateRunStatus_ok` : what a write that is accepted does.
-/

namespace CertRuns

theorem Decimal.text_injective {m n : Nat} (h : Decimal.text m = Decimal.text n) : m = n := by
  have hc : (Decimal.digits m).map Decimal.Digit.char = (Decimal.digits n).map Decimal.Digit.char :=
    String.ofList_injective h
  have hchar : ∀ a b : Decimal.Digit, a.char = b.char → a = b := by
    intro a b hab
    have := congrArg Decimal.digit? hab
    rw [Decimal.digit?_char, Decimal.digit?_char] at this
    exact Option.some.inj this
  rw [← Decimal.value_digits m, (List.map_inj_right hchar).mp hc, Decimal.value_digits]

def Run.HasVersion (run : Run) (version : Nat) : Prop :=
  run.metadata.resourceVersion = Decimal.text version

namespace Store

variable {s s' : Store} {key k : ObjectKey} {run r : Run}

/-! ## What operations do to the runs -/

/-- What an operation does to the runs of a store. -/
inductive Changes (s s' : Store) : Prop
  /-- Nothing. -/
  | kept (hv : s.version ≤ s'.version) (hr : s'.runs = s.runs)
  /-- A run is removed. -/
  | removed (key : ObjectKey) (hv : s.version ≤ s'.version) (hr : s'.runs = s.runs.erase key)
  /-- A run is stored as the next version. -/
  | stored (run : Run) (hv : s'.version = s.version + 1) (hn : run.HasVersion s'.version)
      (hr : s'.runs = s.runs.insert run.key run)

/-- Runs stand under their own keys, and no two carry the same version. -/
structure Sound (s : Store) : Prop where
  keyed : ∀ {k run}, s.runs.get? k = some run → run.key = k
  numbered : ∀ {k run}, s.runs.get? k = some run → ∃ n ≤ s.version, run.HasVersion n
  distinct : ∀ {k k' run run'}, s.runs.get? k = some run → s.runs.get? k' = some run' →
    run.metadata.resourceVersion = run'.metadata.resourceVersion → run = run'

/-- What is stored in `s'` is stored in `s` or carries a later version. -/
structure Later (s s' : Store) : Prop where
  version : s.version ≤ s'.version
  runs : ∀ {k run}, s'.runs.get? k = some run →
    s.runs.get? k = some run ∨ ∃ n, s.version < n ∧ n ≤ s'.version ∧ run.HasVersion n

theorem Changes.later (h : Changes s s') : Later s s' := by
  cases h with
  | kept hv hr => exact ⟨hv, fun h => .inl (hr ▸ h)⟩
  | removed key hv hr =>
    refine ⟨hv, fun {k run} h => ?_⟩
    rw [hr, Table.get?_erase] at h
    split at h
    · cases h
    · exact .inl h
  | stored new hv hn hr =>
    refine ⟨by omega, fun {k run} h => ?_⟩
    rw [hr, Table.get?_insert] at h
    split at h
    · cases h
      exact .inr ⟨s'.version, by omega, Nat.le_refl _, hn⟩
    · exact .inl h

theorem Sound.empty : Sound {} where
  keyed h := by cases h
  numbered h := by cases h
  distinct h := by cases h

theorem Sound.changes (hs : Sound s) (h : Changes s s') : Sound s' := by
  cases h with
  | kept hv hr =>
    refine ⟨fun h => hs.keyed (hr ▸ h), fun h => ?_, fun h h' => hs.distinct (hr ▸ h) (hr ▸ h')⟩
    obtain ⟨n, hn, hv'⟩ := hs.numbered (hr ▸ h)
    exact ⟨n, by omega, hv'⟩
  | removed key hv hr =>
    have hold {k : ObjectKey} {run : Run} (h : s'.runs.get? k = some run) :
        s.runs.get? k = some run := by
      rw [hr, Table.get?_erase] at h
      split at h
      · cases h
      · exact h
    refine ⟨fun h => hs.keyed (hold h), fun h => ?_, fun h h' => hs.distinct (hold h) (hold h')⟩
    obtain ⟨n, hn, hv'⟩ := hs.numbered (hold h)
    exact ⟨n, by omega, hv'⟩
  | stored new hv hn hr =>
    have hold {k : ObjectKey} {run : Run} (h : s'.runs.get? k = some run) :
        k = new.key ∧ run = new ∨ s.runs.get? k = some run := by
      rw [hr, Table.get?_insert] at h
      split at h
      · exact .inl ⟨by assumption, (Option.some.inj h).symm⟩
      · exact .inr h
    have hfresh {k : ObjectKey} {run : Run} (h : s.runs.get? k = some run) :
        new.metadata.resourceVersion ≠ run.metadata.resourceVersion := by
      intro he
      obtain ⟨n, hle, hr⟩ := hs.numbered h
      rw [hn, hr] at he
      have := Decimal.text_injective he
      omega
    refine ⟨fun h => ?_, fun h => ?_, fun h h' he => ?_⟩
    · rcases hold h with ⟨rfl, rfl⟩ | h
      · rfl
      · exact hs.keyed h
    · rcases hold h with ⟨rfl, rfl⟩ | h
      · exact ⟨s'.version, Nat.le_refl _, hn⟩
      · obtain ⟨n, hle, hv'⟩ := hs.numbered h
        exact ⟨n, by omega, hv'⟩
    · rcases hold h with ⟨_, rfl⟩ | h <;> rcases hold h' with ⟨_, rfl⟩ | h'
      · rfl
      · exact absurd he (hfresh h')
      · exact absurd he.symm (hfresh h)
      · exact hs.distinct h h' he

/-! ## Copies -/

/-- A run that was stored once. A stored run with the same version is the same. -/
structure Copy (s : Store) (r : Run) : Prop where
  numbered : ∃ n ≤ s.version, r.HasVersion n
  same : ∀ {k run}, s.runs.get? k = some run →
    run.metadata.resourceVersion = r.metadata.resourceVersion → run = r

theorem Sound.copy (hs : Sound s) (h : s.runs.get? k = some r) : Copy s r :=
  ⟨hs.numbered h, fun hk he => hs.distinct hk h he⟩

theorem Copy.later (hc : Copy s r) (h : Later s s') : Copy s' r := by
  obtain ⟨n, hn, hr⟩ := hc.numbered
  refine ⟨⟨n, Nat.le_trans hn h.version, hr⟩, fun {k run} hk he => ?_⟩
  rcases h.runs hk with hold | ⟨n', hlt, _, hnew⟩
  · exact hc.same hold he
  · rw [hnew, hr] at he
    have := Decimal.text_injective he
    omega

/-! ## Calls -/

/-- What a call does to the runs of a store: at most it writes the status of one that is stored. -/
inductive Rewrites (s s' : Store) : Prop
  | kept (hv : s.version ≤ s'.version) (hr : s'.runs = s.runs)
  | rewritten {key : ObjectKey} {before : Run} (hb : s.runs.get? key = some before)
      (status : RunStatus) (hv : s'.version = s.version + 1)
      (hr : s'.runs = s.runs.insert key (before.rewritten status s'.version))

theorem Rewrites.changes (hs : Sound s) (h : Rewrites s s') : Changes s s' := by
  cases h with
  | kept hv hr => exact .kept hv hr
  | @rewritten key before hb status hv hr =>
    have hkey : before.key = key := hs.keyed hb
    refine .stored (before.rewritten status s'.version) hv rfl ?_
    rw [hr, ← hkey]
    rfl

/-- A call neither adds a run nor removes one, and no run changes its identity. -/
theorem Rewrites.uid (h : Rewrites s s') (k : ObjectKey) :
    (s'.runs.get? k).map (·.metadata.uid) = (s.runs.get? k).map (·.metadata.uid) := by
  cases h with
  | kept hv hr => rw [hr]
  | @rewritten key before hb status hv hr =>
    rw [hr, Table.get?_insert]
    split
    · rename_i hk
      rw [hk, hb]
      rfl
    · rfl

/-- What a write that is accepted does: the run must be stored in the version that the write names,
and only its status and its version change. -/
theorem updateRunStatus_ok {w stored : Run} (h : s.updateRunStatus w = (s', .ok stored)) :
    ∃ before, s.runs.get? w.key = some before ∧
      before.metadata.resourceVersion = w.metadata.resourceVersion ∧
      stored = before.rewritten w.status s'.version ∧ s'.version = s.version + 1 ∧
      s'.runs = s.runs.insert w.key stored := by
  have hend := s.statusWrite w
  rw [h] at hend
  cases hend with
  | accepted hb _ hv => exact ⟨_, hb, hv, rfl, rfl, rfl⟩

theorem updateRunStatus_rewrites (s : Store) (w : Run) : Rewrites s (s.updateRunStatus w).1 := by
  have hend := s.statusWrite w
  generalize s.updateRunStatus w = result at hend ⊢
  cases hend with
  | missing | stale => exact .kept (Nat.le_refl _) rfl
  | @forced before hb => exact .rewritten hb before.status rfl rfl
  | accepted hb => exact .rewritten hb w.status rfl rfl

theorem createPod_rewrites (s : Store) (stamp : Stamp) (pod : Pod) :
    Rewrites s (s.createPod stamp pod).1 := by
  have hend := s.podCreation stamp pod
  generalize s.createPod stamp pod = result at hend ⊢
  cases hend with
  | rejected | unnamed | taken => exact .kept (Nat.le_refl _) rfl
  | created => exact .kept (Nat.le_succ _) rfl

theorem deletePod_rewrites (s : Store) (key : ObjectKey) : Rewrites s (s.deletePod key).1 := by
  have hend := s.podDeletion key
  generalize s.deletePod key = result at hend ⊢
  cases hend with
  | missing | deleted => exact .kept (Nat.le_refl _) rfl

theorem perform_rewrites (s : Store) (stamp : Stamp) (r : Request) :
    Rewrites s (s.perform stamp r).1 := by
  cases r with
  | getRun | listRuns | getPod | listPods => exact .kept (Nat.le_refl _) rfl
  | updateRunStatus run => exact updateRunStatus_rewrites s run
  | createPod pod => exact createPod_rewrites s stamp pod
  | deletePod key => exact deletePod_rewrites s key

/-! ## From outside -/

theorem applyRun_changes (s : Store) (stamp : Stamp) (run : Run) :
    Changes s (s.applyRun stamp run).1 := .stored (s.applyRun stamp run).2 rfl rfl rfl

theorem removeRun_changes (s : Store) (key : ObjectKey) : Changes s (s.removeRun key).1 :=
  .removed key (Nat.le_refl _) rfl

theorem setPodStatus_rewrites (s : Store) (key : ObjectKey) (status : PodStatus) :
    Rewrites s (s.setPodStatus key status).1 := by
  have hend := s.podReport key status
  generalize s.setPodStatus key status = result at hend ⊢
  cases hend with
  | missing | reported => exact .kept (Nat.le_succ _) rfl

end Store

end CertRuns
