import CertRuns.Control.Listing

/-!
# What a listing tells a watcher

* `Table.mem_keys`, `Table.contains_foldl_erase`, `KeySet.contains_ofKeys` : sets of keys;
* `mem_compareListing` : after a listing the watcher knows just the runs that were listed;
* `mem_events_iff` : a run that is not listed is an event just when it was known;
* `mem_appeared_iff`, `mem_events_listed` : a run that is listed is one just when it was not known,
  except if it has come to its end before the first listing;
* `nodup_events` : no run is an event twice.
-/

namespace CertRuns

namespace Table

variable {κ α : Type} [Ord κ] [Std.LawfulEqOrd κ] [DecidableEq κ]

theorem contains_insert [Std.TransOrd κ] (t : Table κ α) (k k' : κ) (a : α) :
    (t.insert k a).contains k' = true ↔ k' = k ∨ t.contains k' = true := by
  rw [contains, get?_insert]
  by_cases h : k' = k
  · simp [h]
  · rw [if_neg h]
    exact ⟨.inr, fun hc => hc.resolve_left h⟩

theorem contains_erase (t : Table κ α) (k k' : κ) :
    (t.erase k).contains k' = true ↔ k' ≠ k ∧ t.contains k' = true := by
  rw [contains, get?_erase]
  by_cases h : k' = k
  · simp [h]
  · rw [if_neg h]
    exact ⟨fun hc => ⟨h, hc⟩, And.right⟩

theorem contains_foldl_erase (keys : List κ) (t : Table κ α) (k : κ) :
    (keys.foldl erase t).contains k = true ↔ k ∉ keys ∧ t.contains k = true := by
  induction keys generalizing t with
  | nil => simp
  | cons key keys ih =>
    rw [List.foldl_cons, ih, contains_erase, List.mem_cons]
    simp only [not_or]
    exact ⟨fun ⟨h, hk, hc⟩ => ⟨⟨hk, h⟩, hc⟩, fun ⟨⟨hk, h⟩, hc⟩ => ⟨h, hk, hc⟩⟩

theorem mem_keys (t : Table κ α) (k : κ) : k ∈ t.keys ↔ t.contains k = true := by
  unfold keys contains get?
  induction t.entries with
  | nil => simp [Entries.find?]
  | cons e l ih =>
    rw [Entries.find?_cons, List.map_cons, List.mem_cons, ih]
    by_cases h : k = e.1
    · simp [h]
    · rw [if_neg h]
      exact ⟨fun hc => hc.resolve_left h, .inr⟩

end Table

theorem KeySet.contains_ofKeys (keys : List ObjectKey) (key : ObjectKey) :
    (KeySet.ofKeys keys).contains key = true ↔ key ∈ keys := by
  have hfold (keys : List ObjectKey) (t : KeySet) :
      ((keys.map (·, ())).foldl (fun t e => t.insert e.1 e.2) t).contains key = true ↔
        key ∈ keys ∨ t.contains key = true := by
    induction keys generalizing t with
    | nil => simp
    | cons k keys ih =>
      rw [List.map_cons, List.foldl_cons, ih, Table.contains_insert, List.mem_cons]
      exact ⟨fun h => h.elim (.inl ∘ .inr) fun h => h.elim (.inl ∘ .inl) .inr,
        fun h => h.elim (fun h => h.elim (.inr ∘ .inl) .inl) (.inr ∘ .inr)⟩
  rw [ofKeys, Table.ofList, hfold]
  simp [Table.contains]

variable {known : KeySet} {listed : List Run} {initial : Bool} {key : ObjectKey}

theorem mem_appeared (h : key ∈ (appeared initial known listed).1) :
    ∃ run ∈ listed, run.key = key := by
  induction listed generalizing known with
  | nil => cases h
  | cons run runs ih =>
    rw [appeared] at h
    split at h
    · obtain ⟨r, hr, hk⟩ := ih h
      exact ⟨r, List.mem_cons_of_mem _ hr, hk⟩
    · have h : key = run.key ∨ key ∈ (appeared initial (known.insert run.key ()) runs).1 := by
        simp only at h
        split at h
        · exact .inr h
        · exact List.mem_cons.mp h
      rcases h with rfl | h
      · exact ⟨run, List.mem_cons_self, rfl⟩
      · obtain ⟨r, hr, hk⟩ := ih h
        exact ⟨r, List.mem_cons_of_mem _ hr, hk⟩

theorem contains_appeared : (appeared initial known listed).2.contains key = true ↔
    known.contains key = true ∨ ∃ run ∈ listed, run.key = key := by
  induction listed generalizing known with
  | nil => simp [appeared]
  | cons run runs ih =>
    rw [appeared]
    split
    · rename_i hknown
      rw [ih]
      simp only [List.mem_cons, exists_eq_or_imp]
      exact ⟨fun h => h.imp_right .inr,
        fun h => h.elim .inl fun h => h.elim (fun he => .inl (he ▸ hknown)) .inr⟩
    · simp only [ih, Table.contains_insert, List.mem_cons, exists_eq_or_imp, or_assoc]
      rw [or_left_comm, eq_comm (a := key)]

theorem mem_vanished : key ∈ vanished known listed ↔
    known.contains key = true ∧ ∀ run ∈ listed, run.key ≠ key := by
  unfold vanished
  rw [List.mem_filter, Table.mem_keys, Bool.not_eq_true', Bool.eq_false_iff, ne_eq,
    KeySet.contains_ofKeys, List.mem_map]
  simp only [not_exists, not_and, ne_eq]

theorem mem_compareListing : (compareListing known listed initial).2.contains key = true ↔
    ∃ run ∈ listed, run.key = key := by
  simp only [compareListing, Table.contains_foldl_erase, mem_vanished, contains_appeared]
  constructor
  · rintro ⟨hgone, hknown | hlisted⟩
    · refine Classical.byContradiction fun hno => hgone ⟨.inl hknown, fun run hr hk => ?_⟩
      exact hno ⟨run, hr, hk⟩
    · exact hlisted
  · rintro ⟨run, hr, hk⟩
    exact ⟨fun hgone => hgone.2 run hr hk, .inr ⟨run, hr, hk⟩⟩

theorem mem_events_iff (habsent : ∀ run ∈ listed, run.key ≠ key) :
    key ∈ (compareListing known listed initial).1 ↔ known.contains key = true := by
  have hnone : ¬ ∃ run ∈ listed, run.key = key := fun ⟨run, hr, hk⟩ => habsent run hr hk
  simp only [compareListing, List.mem_append, mem_vanished, contains_appeared]
  constructor
  · rintro (h | ⟨h, _⟩)
    · exact absurd (mem_appeared h) hnone
    · exact h.resolve_right hnone
  · exact fun h => .inr ⟨.inl h, habsent⟩

/-- A run appears just when it is listed and was not known. Of two runs of one key the first one
counts. In the first listing a run that has come to its end does not appear. -/
theorem mem_appeared_iff : key ∈ (appeared initial known listed).1 ↔
    known.contains key = false ∧ ∃ run, listed.find? (·.key == key) = some run ∧
      ¬ (initial = true ∧ run.status.phase.isTerminal = true) := by
  induction listed generalizing known with
  | nil => simp [appeared]
  | cons run runs ih =>
    rw [appeared]
    split
    · rename_i hknown
      rw [ih]
      by_cases hk : run.key = key
      · rw [← hk, hknown]
        simp
      · rw [List.find?_cons_of_neg (by simpa using hk)]
    · rename_i hknown
      by_cases hk : run.key = key
      · have hlater : key ∉ (appeared initial (known.insert run.key ()) runs).1 := by
          rw [ih, (Table.contains_insert _ _ _ _).mpr (.inl hk.symm)]
          simp
        rw [List.find?_cons_of_pos (by simpa using hk)]
        subst hk
        simp only
        split
        · rename_i hskip
          rw [Bool.and_eq_true] at hskip
          exact ⟨fun h => absurd h hlater,
            fun ⟨_, r, hr, hshown⟩ => absurd (Option.some.inj hr ▸ hskip) hshown⟩
        · rename_i hshown
          rw [Bool.and_eq_true] at hshown
          exact ⟨fun _ => ⟨Bool.eq_false_iff.mpr hknown, run, rfl, hshown⟩,
            fun _ => List.mem_cons_self⟩
      · have hsame : (known.insert run.key ()).contains key = known.contains key := by
          rw [Bool.eq_iff_iff, Table.contains_insert]
          exact ⟨fun h => h.resolve_left fun he => hk he.symm, .inr⟩
        rw [List.find?_cons_of_neg (by simpa using hk), ← hsame, ← ih]
        simp only
        split
        · exact Iff.rfl
        · rw [List.mem_cons]
          exact ⟨fun h => h.resolve_left fun he => hk he.symm, .inr⟩

/-- A run that is listed is an event just when it was not known, or has come to its end before the
first listing. -/
theorem mem_events_listed (hlisted : ∃ run ∈ listed, run.key = key) :
    key ∈ (compareListing known listed initial).1 ↔
      known.contains key = false ∧ ∃ run, listed.find? (·.key == key) = some run ∧
        ¬ (initial = true ∧ run.status.phase.isTerminal = true) := by
  obtain ⟨run, hrun, hk⟩ := hlisted
  simp only [compareListing, List.mem_append, mem_vanished]
  rw [mem_appeared_iff]
  exact ⟨fun h => h.resolve_right fun ⟨_, hgone⟩ => hgone run hrun hk, .inl⟩

theorem Table.nodup_keys {κ α : Type} [Ord κ] [Std.TransOrd κ] (t : Table κ α) : t.keys.Nodup := by
  refine List.pairwise_map.mpr (t.ascending.imp fun {x y} hlt heq => ?_)
  have hself : compare y.1 y.1 = .eq := Std.ReflCmp.compare_self
  rw [heq, hself] at hlt
  cases hlt

theorem nodup_appeared : (appeared initial known listed).1.Nodup := by
  induction listed generalizing known with
  | nil => exact List.nodup_nil
  | cons run runs ih =>
    rw [appeared]
    split
    · exact ih
    · simp only
      split
      · exact ih
      · refine List.nodup_cons.mpr ⟨fun h => ?_, ih⟩
        have hfresh := (mem_appeared_iff.mp h).1
        rw [(Table.contains_insert _ _ _ _).mpr (.inl rfl)] at hfresh
        cases hfresh

theorem nodup_events : (compareListing known listed initial).1.Nodup := by
  refine List.nodup_append.mpr ⟨nodup_appeared, (Table.nodup_keys _).filter _, ?_⟩
  rintro k hnew _ hgone rfl
  obtain ⟨run, hrun, hk⟩ := mem_appeared hnew
  exact (mem_vanished.mp hgone).2 run hrun hk

end CertRuns
