import CertRuns.Job.Build
import CertRuns.Proofs.Cluster.Versions
import CertRuns.Proofs.Number.Decimal

/-!
# Names of pods

* `podName_injective` : different numbers give different names; `podName_ne_empty`;
* `podIndex?_podName` : the number in a name is the one that it was made of;
* `forRun_key` : the pod of a run stands in the run's namespace under the name that it is given.
-/

namespace CertRuns.Job

theorem podName_injective {m n : UInt64} (h : podName m = podName n) : m = n := by
  have hlist := congrArg String.toList h
  simp only [podName, String.toList_append] at hlist
  have htext : Decimal.text m.toNat = Decimal.text n.toNat :=
    String.toList_inj.mp (List.append_cancel_left hlist)
  exact UInt64.toNat_inj.mp (Decimal.text_injective htext)

theorem podName_ne_empty (n : UInt64) : podName n ≠ "" := by
  intro h
  have hlist := congrArg String.toList h
  simp [podName, podNameStem, String.toList_append] at hlist

theorem unsigned?_chars (n : UInt64) :
    Decimal.unsigned? longBound (Decimal.chars n.toNat) = some n.toNat := by
  obtain ⟨d, ds, hds⟩ := List.exists_cons_of_ne_nil (Decimal.digits_ne_nil n.toNat)
  have hvalue := Decimal.value_digits n.toNat
  have hspan := Decimal.spanDigits_map (Decimal.digits n.toNat)
  have hlt : n.toNat < longBound := n.toNat_lt
  rw [Decimal.chars_eq_map]
  rw [hds] at hspan hvalue ⊢
  rw [List.map_cons] at hspan ⊢
  unfold Decimal.unsigned?
  split
  · rename_i hsign
    exact absurd (List.cons.inj hsign).1 (Decimal.char_ne_sign d).1
  · have hread : Decimal.natural? (d.char :: ds.map Decimal.Digit.char) = some n.toNat := by
      simp only [Decimal.natural?, hspan, hvalue]
    show (Decimal.natural? (d.char :: ds.map Decimal.Digit.char)).filter _ = _
    rw [hread, Option.filter_some, if_pos (decide_eq_true hlt)]

theorem rest?_append (stem rest : List Char) : rest? stem (stem ++ rest) = some rest := by
  induction stem with
  | nil => rfl
  | cons c stem ih => rw [List.cons_append, rest?, if_pos rfl, ih]

theorem podIndex?_podName (n : UInt64) : podIndex? (podName n) = some n := by
  have hname : (podName n).toList = (podNameStem.toList ++ ['-']) ++ Decimal.chars n.toNat := by
    simp [podName, Decimal.text, String.toList_append]
  rw [podIndex?, hname, rest?_append, Option.bind_eq_bind, Option.bind_some, unsigned?_chars,
    Option.map_some, UInt64.ofNat_toNat]

theorem Step.frame_metadata (step : Step) {p q : Pod} (h : p.metadata = q.metadata) :
    (step.frame p).metadata = (step.frame q).metadata := by
  cases step with
  | preflightSecret secret => cases secret <;> exact h
  | name | ns | owner => simp [frame, h]
  | _ => exact h

theorem Step.apply_metadata {step : Step} {p q : Pod} (h : step.apply p = .ok q) :
    q.metadata = (step.frame p).metadata := by
  rw [apply_eq] at h
  split at h
  · cases h
    rfl
  · split at h
    · cases h
      exact frame_metadata step rfl
    · cases h

theorem build_metadata {steps : List Step} {p p' q : Pod} (hp : p.metadata = p'.metadata)
    (h : build p steps = .ok q) :
    q.metadata = (steps.foldl (fun p step => step.frame p) p').metadata := by
  induction steps generalizing p p' with
  | nil =>
    cases h
    exact hp
  | cons step steps ih =>
    rw [build] at h
    cases ha : step.apply p with
    | error e =>
      rw [ha] at h
      cases h
    | ok r =>
      rw [ha] at h
      exact ih ((Step.apply_metadata ha).trans (step.frame_metadata hp)) h

theorem forRun_key {run : Run} {podName sidecarImage runnerImage : String} {pod : Pod}
    (h : forRun run podName sidecarImage runnerImage = .ok pod) :
    pod.key = ⟨run.key.ns, podName⟩ := by
  have hm := build_metadata rfl h
  rw [Pod.key, hm]
  cases hs : run.spec.preflightSecretName <;>
    simp [stepsForRun, Step.frame, hs, ObjectMeta.key, Run.key]

end CertRuns.Job
