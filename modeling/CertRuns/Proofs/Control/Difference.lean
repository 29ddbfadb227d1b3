import CertRuns.Proofs.Control.Views

/-!
# The events of a listing in their order

A listing is walked through run by run, and every run is noted as it is met, so of two runs with
one key only the first one has a say. What comes out has a form that no longer speaks of the walk: a
list of keys that come and a list of keys that go, both read off the listing and the keys known
before.

* `eraseDups_filter` : duplicates are erased before or after a filter;
* `firstEnded` : the first run of a key has come to its end;
* `arrivals`, `departures` : the keys that come and go; `appeared_eq`, `vanished_eq`;
* `listing_difference` : the law of comparing listings.
-/

namespace CertRuns

theorem eraseDups_filter {α : Type} [BEq α] [LawfulBEq α] (p : α → Bool) (l : List α) :
    (l.filter p).eraseDups = l.eraseDups.filter p := by
  match l with
  | [] => rfl
  | a :: l =>
    have ih := eraseDups_filter p (l.filter fun b => !b == a)
    have hswap : (l.filter p).filter (fun b => !b == a) = (l.filter fun b => !b == a).filter p := by
      simp only [List.filter_filter, Bool.and_comm]
    rw [List.eraseDups_cons, List.filter_cons, List.filter_cons, ← ih, ← hswap]
    split
    · rw [List.eraseDups_cons]
    · rename_i ha
      congr 1
      refine (List.filter_eq_self.mpr fun b hb => ?_).symm
      have hp := (List.mem_filter.mp hb).2
      simp only [Bool.not_eq_true', beq_eq_false_iff_ne, ne_eq]
      rintro rfl
      exact ha hp
termination_by l.length
decreasing_by exact Nat.lt_succ_of_le (List.length_filter_le _ _)

/-! ## Keys that come -/

/-- The first run of a key in a listing has come to its end. -/
def firstEnded (listed : List Run) (key : ObjectKey) : Bool :=
  (listed.find? (·.key == key)).any (·.status.phase.isTerminal)

/-- The keys of a listing that were not known, in the order in which they occur first. In the first
listing a run that has come to its end before does not count. -/
def arrivals (initial : Bool) (known : KeySet) (listed : List Run) : List ObjectKey :=
  (listed.map Run.key).eraseDups.filter fun key =>
    !known.contains key && !(initial && firstEnded listed key)

variable {initial : Bool} {known : KeySet} {listed : List Run} {key : ObjectKey}

theorem firstEnded_cons_self (run : Run) :
    firstEnded (run :: listed) run.key = run.status.phase.isTerminal := by
  simp [firstEnded]

theorem firstEnded_cons_ne {run : Run} (h : key ≠ run.key) :
    firstEnded (run :: listed) key = firstEnded listed key := by
  rw [firstEnded, List.find?_cons_of_neg (by simpa using h.symm), firstEnded]

theorem firstEnded_of_not_mem (h : key ∉ listed.map Run.key) : firstEnded listed key = false := by
  have hnone : listed.find? (·.key == key) = none := by
    refine List.find?_eq_none.mpr fun run hrun hk => h ?_
    rw [← eq_of_beq hk]
    exact List.mem_map_of_mem hrun
  rw [firstEnded, hnone, Option.any_none]

theorem contains_insert_ne (known : KeySet) {k : ObjectKey} (h : key ≠ k) :
    (known.insert k ()).contains key = known.contains key := by
  rw [Table.contains, Table.get?_insert, if_neg h, Table.contains]

theorem appeared_eq : (appeared initial known listed).1 = arrivals initial known listed := by
  induction listed generalizing known with
  | nil => rfl
  | cons run runs ih =>
    unfold appeared arrivals
    rw [List.map_cons, List.eraseDups_cons, List.filter_cons, eraseDups_filter, List.filter_filter,
      firstEnded_cons_self]
    have hrest (seen : KeySet) (hseen : seen.contains run.key = true)
        (hsame : ∀ key, key ≠ run.key → seen.contains key = known.contains key) :
        (runs.map Run.key).eraseDups.filter (fun key =>
          (!known.contains key && !(initial && firstEnded (run :: runs) key)) && !key == run.key) =
        arrivals initial seen runs := by
      unfold arrivals
      refine List.filter_congr fun key _ => ?_
      by_cases hk : key = run.key
      · simp [hk, hseen]
      · simp [firstEnded_cons_ne hk, hsame key hk, hk]
    by_cases hknown : known.contains run.key = true
    · rw [if_pos hknown, hknown, hrest known hknown fun _ _ => rfl, ih]
      rfl
    · rw [if_neg hknown, Bool.eq_false_iff.mpr hknown, hrest (known.insert run.key ())
        ((Table.contains_insert _ _ _ _).mpr (.inl rfl)) fun key => contains_insert_ne known, ← ih]
      cases initial <;> cases run.status.phase.isTerminal <;> rfl

/-! ## Keys that go -/

/-- The keys that were known and are not listed, in ascending order. -/
def departures (known : KeySet) (listed : List Run) : List ObjectKey :=
  known.keys.filter fun key => !(listed.map Run.key).contains key

theorem mem_departures :
    key ∈ departures known listed ↔ known.contains key = true ∧ key ∉ listed.map Run.key := by
  rw [departures, List.mem_filter, Table.mem_keys]
  simp

theorem ascending_filter_keys (known : KeySet) (p : ObjectKey → Bool) :
    (known.keys.filter p).Pairwise fun k k' => compare k k' = .lt := by
  refine List.Pairwise.filter p ?_
  exact List.pairwise_map.mpr known.ascending

theorem vanished_eq :
    vanished (appeared initial known listed).2 listed = departures known listed := by
  refine eq_of_ascending (ascending_filter_keys _ _) (ascending_filter_keys _ _) fun key => ?_
  have hmem : key ∈ listed.map Run.key ↔ ∃ run ∈ listed, run.key = key := List.mem_map
  have hgone : key ∉ listed.map Run.key ↔ ∀ run ∈ listed, run.key ≠ key := by
    rw [hmem]
    simp
  rw [mem_vanished, mem_departures, contains_appeared, ← hgone, ← hmem]
  exact ⟨fun ⟨hk, hno⟩ => ⟨hk.resolve_right hno, hno⟩, fun ⟨hk, hno⟩ => ⟨.inl hk, hno⟩⟩

/-! ## The law -/

theorem KeySet.ext {s t : KeySet} (h : ∀ key, s.contains key = true ↔ t.contains key = true) :
    s = t := by
  refine Table.ext_get? fun key => ?_
  have hkey := h key
  unfold Table.contains at hkey
  cases hs : s.get? key <;> cases ht : t.get? key <;> simp_all

/-- What a watcher knows after a listing. -/
theorem compareListing_snd :
    (compareListing known listed initial).2 = .ofKeys (listed.map Run.key) := by
  refine KeySet.ext fun key => ?_
  rw [mem_compareListing, KeySet.contains_ofKeys, List.mem_map]

theorem compareListing_eq : compareListing known listed initial =
    (arrivals initial known listed ++ departures known listed, .ofKeys (listed.map Run.key)) := by
  refine Prod.ext ?_ compareListing_snd
  show (appeared initial known listed).1 ++ vanished (appeared initial known listed).2 listed = _
  rw [appeared_eq, vanished_eq]

theorem mem_arrivals : key ∈ arrivals initial known listed ↔
    key ∈ listed.map Run.key ∧ known.contains key = false ∧
      ¬ (initial = true ∧ firstEnded listed key = true) := by
  rw [arrivals, List.mem_filter, List.mem_eraseDups, Bool.and_eq_true, Bool.not_eq_true',
    Bool.not_eq_true', ← Bool.and_eq_true, Bool.not_eq_true]

/-- A key is an event if it is listed and was not known, or was known and is not listed. -/
theorem mem_events : key ∈ arrivals initial known listed ++ departures known listed ↔
    (known.contains key = true ↔ key ∉ listed.map Run.key) ∧
      ¬ (initial = true ∧ firstEnded listed key = true) := by
  rw [List.mem_append, mem_arrivals, mem_departures]
  by_cases hlisted : key ∈ listed.map Run.key
  · simp [hlisted]
  · simp [hlisted, firstEnded_of_not_mem hlisted]

/-- A listing that is repeated has no events. -/
theorem compareListing_again (again : Bool) :
    compareListing (.ofKeys (listed.map Run.key)) listed again =
      ([], .ofKeys (listed.map Run.key)) := by
  rw [compareListing_eq]
  congr 1
  refine List.eq_nil_iff_forall_not_mem.mpr fun key hkey => ?_
  have hchanged := (mem_events.mp hkey).1
  rw [KeySet.contains_ofKeys] at hchanged
  exact (iff_not_self hchanged)

/-- After a listing just the keys of its runs are known, and its events are first the keys that
come, in the order of the listing, and then those that go, by namespace and name. No key is an event
twice, and a key is one just when it is listed and was not known or the other way round; a run that
has come to its end before the first listing is the only exception. The same listing again has no
events. -/
theorem listing_difference (known : KeySet) (listed : List Run) (initial : Bool) :
    compareListing known listed initial =
        (arrivals initial known listed ++ departures known listed,
          .ofKeys (listed.map Run.key)) ∧
      (compareListing known listed initial).1.Nodup ∧
      (departures known listed).Pairwise
        (fun k k' => k.ns < k'.ns ∨ k.ns = k'.ns ∧ k.name < k'.name) ∧
      (∀ key, key ∈ (compareListing known listed initial).1 ↔
        (known.contains key = true ↔ key ∉ listed.map Run.key) ∧
          ¬ (initial = true ∧ firstEnded listed key = true)) ∧
      ∀ again, compareListing (compareListing known listed initial).2 listed again =
        ([], (compareListing known listed initial).2) := by
  have hordered : (departures known listed).Pairwise
      (fun k k' => k.ns < k'.ns ∨ k.ns = k'.ns ∧ k.name < k'.name) :=
    (ascending_filter_keys known _).imp ObjectKey.compare_eq_lt.mp
  refine ⟨compareListing_eq, nodup_events, hordered, fun key => ?_, fun again => ?_⟩
  · rw [compareListing_eq, mem_events]
  · rw [compareListing_snd, compareListing_again]

example :
    let listed := ["b", "a", "b"].map fun name => ({ metadata := { ns := "ops", name } } : Run)
    (compareListing (.ofKeys [⟨"ops", "z"⟩, ⟨"ops", "a"⟩, ⟨"ops", "c"⟩]) listed false).1 =
      [⟨"ops", "b"⟩, ⟨"ops", "c"⟩, ⟨"ops", "z"⟩] := by decide +kernel

end CertRuns
