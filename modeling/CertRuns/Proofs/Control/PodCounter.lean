import CertRuns.Proofs.Control.Monitor
import CertRuns.Proofs.Control.Reconcile
import CertRuns.Proofs.Control.Watcher

/-!
# The counter of pod names

* `HighestNumber` : the highest number in the names of pods; `highestNumber` : it is found;
* `Controller.le_sawPodName`, `number_le_sawPodName` : the counter passes a name that was seen;
* `Reconcile.Resumes.podCounter_le`, `Monitor.Resumes.podCounter`, `Watcher.Resumes.podCounter_le` :
  no step of a task takes the counter back, as long as it does not wrap around.
-/

namespace CertRuns

/-! ## Numbers -/

theorem toNat_max (a b : UInt64) : (max a b).toNat = max a.toNat b.toNat := by
  show (if a ≤ b then b else a).toNat = _
  simp only [UInt64.le_iff_toNat_le]
  split <;> omega

theorem le_max (a b : UInt64) : a ≤ max a b ∧ b ≤ max a b := by
  simp only [UInt64.le_iff_toNat_le, toNat_max]
  omega

theorem le_foldl_max (l : List UInt64) (a : UInt64) :
    a ≤ l.foldl max a ∧ ∀ k ∈ l, k ≤ l.foldl max a := by
  induction l generalizing a with
  | nil => exact ⟨UInt64.le_refl _, List.forall_mem_nil _⟩
  | cons b l ih =>
    obtain ⟨hle, hall⟩ := ih (max a b)
    obtain ⟨ha, hb⟩ := le_max a b
    exact ⟨UInt64.le_trans ha hle, List.forall_mem_cons.mpr ⟨UInt64.le_trans hb hle, hall⟩⟩

theorem foldl_max_mem (l : List UInt64) (a : UInt64) :
    l.foldl max a = a ∨ l.foldl max a ∈ l := by
  induction l generalizing a with
  | nil => exact .inl rfl
  | cons b l ih =>
    have hmax : max a b = a ∨ max a b = b := by
      show (if a ≤ b then b else a) = a ∨ (if a ≤ b then b else a) = b
      split <;> simp
    rcases ih (max a b), hmax with ⟨h | h, hm | hm⟩
    · exact .inl (h.trans hm)
    · exact .inr (List.mem_cons.mpr (.inl (h.trans hm)))
    · exact .inr (List.mem_cons_of_mem _ h)
    · exact .inr (List.mem_cons_of_mem _ h)

/-- It is the highest number in the names of pods, and zero if none has a number. -/
structure HighestNumber (pods : List Pod) (n : UInt64) : Prop where
  bound {pod : Pod} (hm : pod ∈ pods) {k : UInt64}
    (h : Job.podIndex? pod.metadata.name = some k) : k ≤ n
  attained : (∃ pod ∈ pods, Job.podIndex? pod.metadata.name = some n) ∨
    n = 0 ∧ ∀ pod ∈ pods, Job.podIndex? pod.metadata.name = none

theorem highestNumber (pods : List Pod) : HighestNumber pods (highestPodNumber pods) := by
  have hbound {pod : Pod} (hm : pod ∈ pods) {k : UInt64}
      (h : Job.podIndex? pod.metadata.name = some k) : k ≤ highestPodNumber pods :=
    (le_foldl_max _ _).2 k (List.mem_filterMap.mpr ⟨pod, hm, h⟩)
  refine ⟨hbound, ?_⟩
  rcases foldl_max_mem (pods.filterMap fun p => Job.podIndex? p.metadata.name) 0 with h | h
  · by_cases hex : ∃ pod ∈ pods, Job.podIndex? pod.metadata.name = some (highestPodNumber pods)
    · exact .inl hex
    · refine .inr ⟨h, fun pod hm => Option.eq_none_iff_forall_ne_some.mpr fun k hk => hex ?_⟩
      have hle : k ≤ highestPodNumber pods := hbound hm hk
      have hzero : highestPodNumber pods = 0 := h
      rw [hzero] at hle ⊢
      exact ⟨pod, hm, by rw [hk, UInt64.le_antisymm hle UInt64.zero_le]⟩
  · exact .inl (List.mem_filterMap.mp h)

namespace Controller

variable (d : Controller)

theorem le_sawPodName (name : String) : d.podCounter ≤ (d.sawPodName name).podCounter := by
  unfold sawPodName
  split
  · exact (le_max _ _).1
  · exact UInt64.le_refl _

theorem number_le_sawPodName {name : String} {n : UInt64} (h : Job.podIndex? name = some n) :
    n ≤ (d.sawPodName name).podCounter := by
  rw [sawPodName, h]
  exact (le_max _ _).2

@[simp] theorem podCounter_withTracker (t : Tracker) :
    (d.withTracker t).podCounter = d.podCounter := rfl

@[simp] theorem podCounter_raise? (token : Option Token) :
    (d.raise? token).podCounter = d.podCounter := by
  cases token <;> rfl

end Controller

/-! ## Steps -/

theorem toNat_next {n : UInt64} (h : n.toNat < longBound - 1) : (n + 1).toNat = n.toNat + 1 := by
  unfold longBound at h
  rw [UInt64.toNat_add]
  have : (1 : UInt64).toNat = 1 := rfl
  omega

section
variable {d d' : Controller} {now : Instant} {key : ObjectKey}

theorem Reconcile.Resumes.podCounter_le {stage : Reconcile.Stage}
    {event : (Reconcile.mk key stage).wait.Event} {turn : Reconcile.Turn}
    (h : Reconcile.Resumes d now key stage event d' turn) (hb : d.podCounter.toNat < longBound - 1) :
    d.podCounter ≤ d'.podCounter := by
  cases h with
  | deploy | unbuilt =>
    rw [UInt64.le_iff_toNat_le]
    show _ ≤ (d.podCounter + 1).toNat
    rw [toNat_next hb]
    omega
  | adopt | adoptLate => exact d.le_sawPodName _
  | dropped | cleaning => simp
  | _ => exact UInt64.le_refl _

theorem Monitor.Resumes.podCounter {stage : Monitor.Stage}
    {event : (Monitor.mk key stage).wait.Event} {turn : Monitor.Turn}
    (h : Monitor.Resumes d now key stage event d' turn) : d'.podCounter = d.podCounter := by
  cases h <;> rfl

theorem Watcher.Resumes.podCounter_le {w : Watcher} {event : w.wait.Event} {turn : Watcher.Turn}
    (h : Watcher.Resumes d now w event d' turn) : d.podCounter ≤ d'.podCounter := by
  cases h with
  | seeds => exact (le_max _ _).1
  | _ => exact UInt64.le_refl _

end

end CertRuns
