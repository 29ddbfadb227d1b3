import CertRuns.Proofs.Control.Listing

/-!
# A table is what it binds

The entries of a table are the pairs of a key and the value that is bound to it, each of them once.
A new binding adds one entry to those that are there.

* `nodup_of_ascending`, `eq_of_ascending` : a list in key order is determined by its members;
* `mem_entries`, `nodup_entries` : the entries of a table;
* `ext_get?` : tables that bind the same are equal; `insert_insert`, `erase_insert`,
  `erase_of_none` : a binding that is replaced, taken back, or not there;
* `filter_key` : the entries of one key; `entries_adjust` : those after a value was changed;
* `insert_perm` : the entries after a key was bound that had not been;
* `size_insert_of_none`, `size_insert_of_some`, `size_erase_of_some` : how many there are;
* `ofList_swap`, `get?_ofList` : of the bindings of one key in a list the last counts;
* `mapValues` : the same keys with other values;
* `union s t` : the bindings of both tables; `get?_union`, `union_perm`.
-/

namespace CertRuns

theorem ne_of_compare_lt {κ : Type} [Ord κ] [Std.TransOrd κ] {k k' : κ}
    (h : compare k k' = .lt) : k ≠ k' := by
  rintro rfl
  have hself : compare k k = .eq := Std.ReflCmp.compare_self
  rw [hself] at h
  cases h

section Order
variable {κ β : Type} [Ord κ] [Std.TransOrd κ] {key : β → κ} {l l' : List β}

theorem nodup_of_ascending (h : l.Pairwise fun x y => compare (key x) (key y) = .lt) : l.Nodup :=
  h.imp fun hlt heq => ne_of_compare_lt hlt (congrArg key heq)

theorem eq_of_ascending (h : l.Pairwise fun x y => compare (key x) (key y) = .lt)
    (h' : l'.Pairwise fun x y => compare (key x) (key y) = .lt) (hmem : ∀ x, x ∈ l ↔ x ∈ l') :
    l = l' := by
  have hperm : l.Perm l' :=
    (List.perm_ext_iff_of_nodup (nodup_of_ascending h) (nodup_of_ascending h')).2 hmem
  refine hperm.eq_of_pairwise (fun x y _ _ hxy hyx => ?_) h h'
  exact absurd rfl (ne_of_compare_lt (Std.TransCmp.lt_trans hxy hyx))

end Order

theorem Entries.mem_iff_find? {κ α : Type} [Ord κ] [Std.TransOrd κ] [Std.LawfulEqOrd κ]
    [DecidableEq κ] {l : List (κ × α)} (h : Ascending l) (e : κ × α) :
    e ∈ l ↔ find? e.1 l = some e.2 := by
  induction l with
  | nil => simp [find?]
  | cons x l ih =>
    have hlater : ∀ y ∈ l, compare x.1 y.1 = .lt := (List.pairwise_cons.1 h).1
    rw [find?_cons, List.mem_cons, ih (List.pairwise_cons.1 h).2]
    by_cases hk : e.1 = x.1
    · rw [if_pos hk, Option.some.injEq]
      constructor
      · rintro (rfl | hfound)
        · rfl
        · have hlt := hlater e ((ih (List.pairwise_cons.1 h).2).2 hfound)
          exact absurd hk.symm (ne_of_compare_lt hlt)
      · intro hv
        exact .inl (Prod.ext hk hv.symm)
    · rw [if_neg hk]
      constructor
      · rintro (rfl | hfound)
        · exact absurd rfl hk
        · exact hfound
      · exact .inr

namespace Table

variable {κ α : Type} [Ord κ] [Std.TransOrd κ] [Std.LawfulEqOrd κ] [DecidableEq κ]

theorem mem_entries (t : Table κ α) (e : κ × α) : e ∈ t.entries ↔ t.get? e.1 = some e.2 :=
  Entries.mem_iff_find? t.ascending e

omit [Std.LawfulEqOrd κ] [DecidableEq κ] in
theorem nodup_entries (t : Table κ α) : t.entries.Nodup := nodup_of_ascending t.ascending

theorem ext_get? {s t : Table κ α} (h : ∀ k, s.get? k = t.get? k) : s = t := by
  refine ext_entries (eq_of_ascending s.ascending t.ascending fun e => ?_)
  rw [mem_entries, mem_entries, h]

theorem filter_key (t : Table κ α) (k : κ) :
    t.entries.filter (fun e => e.1 = k) = ((t.get? k).map (k, ·)).toList := by
  obtain ⟨l, h⟩ := t
  show l.filter (fun e => e.1 = k) = ((Entries.find? k l).map (k, ·)).toList
  induction l with
  | nil => rfl
  | cons e l ih =>
    obtain ⟨hlater, hl⟩ := List.pairwise_cons.1 h
    rw [Entries.find?_cons, List.filter_cons]
    by_cases hk : k = e.1
    · subst hk
      have hnone : l.filter (fun x => x.1 = e.1) = [] := by
        refine List.filter_eq_nil_iff.2 fun x hx => ?_
        have hne := ne_of_compare_lt (hlater x hx)
        simpa using hne.symm
      simp [hnone]
    · rw [if_neg hk, ← ih hl]
      simp [Ne.symm hk]

omit [Std.TransOrd κ] in
theorem entries_adjust (t : Table κ α) (k : κ) (f : α → α) :
    (t.adjust k f).entries = t.entries.map fun e => if e.1 = k then (e.1, f e.2) else e := by
  refine List.map_congr_left fun e _ => ?_
  simp only [Std.LawfulEqCmp.compare_eq_iff_eq, eq_comm (a := k)]

theorem insert_insert (t : Table κ α) (k : κ) (a b : α) :
    (t.insert k a).insert k b = t.insert k b := by
  refine ext_get? fun k' => ?_
  rw [get?_insert, get?_insert, get?_insert]
  split <;> rfl

theorem erase_of_none (t : Table κ α) {k : κ} (h : t.get? k = none) : t.erase k = t := by
  refine ext_get? fun k' => ?_
  rw [get?_erase]
  split
  · rename_i hk
    rw [hk, h]
  · rfl

theorem erase_insert (t : Table κ α) {k : κ} (a : α) (h : t.get? k = none) :
    (t.insert k a).erase k = t := by
  refine ext_get? fun k' => ?_
  rw [get?_erase, get?_insert]
  split
  · rename_i hk
    rw [hk, h]
  · rfl

theorem insert_perm (t : Table κ α) {k : κ} (a : α) (h : t.get? k = none) :
    (t.insert k a).entries.Perm ((k, a) :: t.entries) := by
  have hfresh : (k, a) ∉ t.entries := by
    rw [mem_entries, h]
    simp
  rw [List.perm_ext_iff_of_nodup (nodup_entries _) (List.nodup_cons.2 ⟨hfresh, t.nodup_entries⟩)]
  intro e
  rw [mem_entries, get?_insert, List.mem_cons, mem_entries]
  by_cases hk : e.1 = k
  · rw [if_pos hk, Option.some.injEq, hk, h, Prod.ext_iff]
    simp [hk, eq_comm]
  · rw [if_neg hk, Prod.ext_iff]
    simp [hk]

theorem size_insert_of_none (t : Table κ α) {k : κ} (a : α) (h : t.get? k = none) :
    (t.insert k a).size = t.size + 1 :=
  (insert_perm t a h).length_eq

/-- A binding that is replaced is one that is dropped first. -/
theorem insert_erase (t : Table κ α) (k : κ) (a : α) : (t.erase k).insert k a = t.insert k a := by
  refine ext_get? fun k' => ?_
  rw [get?_insert, get?_insert, get?_erase]
  split <;> rfl

theorem insert_of_some (t : Table κ α) {k : κ} {a : α} (h : t.get? k = some a) :
    t.insert k a = t := by
  refine ext_get? fun k' => ?_
  rw [get?_insert]
  split
  · rename_i hk
    rw [hk, h]
  · rfl

theorem size_erase_of_some (t : Table κ α) {k : κ} {a : α} (h : t.get? k = some a) :
    (t.erase k).size + 1 = t.size := by
  rw [← size_insert_of_none (t.erase k) a (get?_erase_self t k), insert_erase, insert_of_some t h]

theorem size_insert_of_some (t : Table κ α) {k : κ} {a : α} (h : t.get? k = some a) (b : α) :
    (t.insert k b).size = t.size := by
  rw [← insert_erase, size_insert_of_none _ b (get?_erase_self t k), size_erase_of_some t h]

theorem insert_comm (t : Table κ α) {k k' : κ} (h : k ≠ k') (a b : α) :
    (t.insert k a).insert k' b = (t.insert k' b).insert k a := by
  refine ext_get? fun x => ?_
  rw [get?_insert, get?_insert, get?_insert, get?_insert]
  by_cases hk : x = k'
  · rw [if_pos hk, if_neg fun hx => h (hx.symm.trans hk), if_pos hk]
  · rw [if_neg hk, if_neg hk]

theorem ofList_swap (l l' : List (κ × α)) {e e' : κ × α} (h : e.1 ≠ e'.1) :
    ofList (l ++ e :: e' :: l') = ofList (l ++ e' :: e :: l') := by
  simp only [ofList, List.foldl_append, List.foldl_cons]
  rw [insert_comm _ h]

theorem get?_ofList (l : List (κ × α)) (k : κ) (a : α) : (ofList l).get? k = some a ↔
    ∃ before after, l = before ++ (k, a) :: after ∧ ∀ e ∈ after, e.1 ≠ k := by
  have hfold (l : List (κ × α)) (t : Table κ α) :
      (l.foldl (fun t e => t.insert e.1 e.2) t).get? k = some a ↔
        (∃ before after, l = before ++ (k, a) :: after ∧ ∀ e ∈ after, e.1 ≠ k) ∨
          ((∀ e ∈ l, e.1 ≠ k) ∧ t.get? k = some a) := by
    induction l generalizing t with
    | nil => simp
    | cons e l ih =>
      rw [List.foldl_cons, ih, get?_insert]
      constructor
      · rintro (⟨before, after, rfl, hlast⟩ | ⟨hnone, hget⟩)
        · exact .inl ⟨e :: before, after, rfl, hlast⟩
        · split at hget
          · rename_i hk
            cases hget
            exact .inl ⟨[], l, by rw [hk]; rfl, hnone⟩
          · rename_i hk
            exact .inr ⟨List.forall_mem_cons.mpr ⟨fun he => hk he.symm, hnone⟩, hget⟩
      · rintro (⟨before, after, heq, hlast⟩ | ⟨hnone, hget⟩)
        · cases before with
          | nil =>
            cases heq
            exact .inr ⟨hlast, if_pos rfl⟩
          | cons x before =>
            cases heq
            exact .inl ⟨before, after, rfl, hlast⟩
        · obtain ⟨hk, hrest⟩ := List.forall_mem_cons.mp hnone
          exact .inr ⟨hrest, by rw [if_neg fun he => hk he.symm, hget]⟩
  rw [ofList, hfold]
  simp

def mapValues {β : Type} (f : α → β) (t : Table κ α) : Table κ β :=
  ⟨t.entries.map fun e => (e.1, f e.2), by
    rw [Ascending, List.pairwise_map]
    exact t.ascending⟩

omit [Std.TransOrd κ] [Std.LawfulEqOrd κ] [DecidableEq κ] in
theorem mapValues_id (t : Table κ α) : t.mapValues id = t :=
  ext_entries (List.map_id _)

omit [Std.TransOrd κ] [Std.LawfulEqOrd κ] [DecidableEq κ] in
theorem keys_mapValues {β : Type} (f : α → β) (t : Table κ α) :
    (t.mapValues f).keys = t.keys := by
  simp [keys, mapValues]

theorem get?_mapValues {β : Type} (f : α → β) (t : Table κ α) (k : κ) :
    (t.mapValues f).get? k = (t.get? k).map f := by
  refine Option.ext fun b => ?_
  rw [← mem_entries _ (k, b), Option.map_eq_some_iff]
  constructor
  · intro hmem
    obtain ⟨e, he, heq⟩ := List.mem_map.mp hmem
    cases heq
    exact ⟨e.2, (mem_entries t e).mp he, rfl⟩
  · rintro ⟨a, ha, rfl⟩
    exact List.mem_map.mpr ⟨(k, a), (mem_entries t (k, a)).mpr ha, rfl⟩

theorem mapValues_insert {β : Type} (f : α → β) (t : Table κ α) (k : κ) (a : α) :
    (t.insert k a).mapValues f = (t.mapValues f).insert k (f a) := by
  refine ext_get? fun x => ?_
  rw [get?_mapValues, get?_insert, get?_insert, get?_mapValues]
  split <;> rfl

theorem mapValues_ofList {β : Type} (f : α → β) (l : List (κ × α)) :
    (ofList l).mapValues f = ofList (l.map fun e => (e.1, f e.2)) := by
  have hfold (t : Table κ α) : (l.foldl (fun t e => t.insert e.1 e.2) t).mapValues f =
      (l.map fun e => (e.1, f e.2)).foldl (fun t e => t.insert e.1 e.2) (t.mapValues f) := by
    induction l generalizing t with
    | nil => rfl
    | cons e l ih => rw [List.foldl_cons, ih, mapValues_insert, List.map_cons, List.foldl_cons]
  exact hfold empty

/-- The bindings of both tables; where both bind a key, that of the second one counts. -/
def union (s t : Table κ α) : Table κ α := t.entries.foldl (fun u e => u.insert e.1 e.2) s

theorem get?_union (s t : Table κ α) (k : κ) :
    (s.union t).get? k = (t.get? k).or (s.get? k) := by
  have hfold (l : List (κ × α)) (hl : Ascending l) (s : Table κ α) :
      (l.foldl (fun u e => u.insert e.1 e.2) s).get? k = (Entries.find? k l).or (s.get? k) := by
    induction l generalizing s with
    | nil => rfl
    | cons e l ih =>
      have hrest := (List.pairwise_cons.1 hl).2
      rw [List.foldl_cons, ih hrest, get?_insert, Entries.find?_cons]
      by_cases hk : k = e.1
      · have hlast : Entries.find? k l = none := by
          cases hf : Entries.find? k l with
          | none => rfl
          | some a =>
            have hmem := (Entries.mem_iff_find? hrest (k, a)).2 hf
            exact absurd hk.symm (ne_of_compare_lt ((List.pairwise_cons.1 hl).1 _ hmem))
        rw [if_pos hk, if_pos hk, hlast]
        rfl
      · rw [if_neg hk, if_neg hk]
  exact hfold t.entries t.ascending s

theorem union_perm {s t : Table κ α} (h : ∀ k, s.contains k = true → t.get? k = none) :
    (s.union t).entries.Perm (s.entries ++ t.entries) := by
  have hdisjoint : (s.entries ++ t.entries).Nodup := by
    refine List.nodup_append.2 ⟨s.nodup_entries, t.nodup_entries, fun x hx y hy heq => ?_⟩
    rw [mem_entries] at hx hy
    rw [← heq, h x.1 (by rw [contains, hx]; rfl)] at hy
    cases hy
  rw [List.perm_ext_iff_of_nodup (nodup_entries _) hdisjoint]
  intro e
  rw [mem_entries, get?_union, List.mem_append, mem_entries, mem_entries]
  cases hs : s.get? e.1 with
  | none => simp
  | some a => simp [h e.1 (by rw [contains, hs]; rfl)]

end Table

end CertRuns
