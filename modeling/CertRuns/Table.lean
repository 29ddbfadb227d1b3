/-!
# Tables in key order

A table binds keys to values and lists its entries with strictly ascending keys, so two tables
with the same bindings are equal and a listing needs no sorting.

* `Ascending l` : the keys of the entries `l` ascend strictly;
* `Entries.insert`, `Entries.erase`, `Entries.find?` : the operations on bare entry lists;
* `Table κ α` : entries together with their order; `get?`, `insert`, `erase`, `adjust`,
  `contains`, `keys`, `values`, `size`, `ofList` (of two bindings of one key the later counts).
-/

namespace CertRuns

def Ascending {κ α : Type} [Ord κ] (l : List (κ × α)) : Prop :=
  l.Pairwise (fun a b => compare a.1 b.1 = .lt)

/-! ## Entry lists -/

namespace Entries

variable {κ α : Type} [Ord κ]

def insert (k : κ) (a : α) : List (κ × α) → List (κ × α)
  | [] => [(k, a)]
  | e :: l =>
    match compare k e.1 with
    | .lt => (k, a) :: e :: l
    | .eq => (k, a) :: l
    | .gt => e :: insert k a l

def erase (k : κ) (l : List (κ × α)) : List (κ × α) :=
  l.filter fun e => compare k e.1 != .eq

def find? (k : κ) : List (κ × α) → Option α
  | [] => none
  | e :: l => if compare k e.1 = .eq then some e.2 else find? k l

def adjust (k : κ) (f : α → α) (l : List (κ × α)) : List (κ × α) :=
  l.map fun e => if compare k e.1 = .eq then (e.1, f e.2) else e

theorem mem_insert {k : κ} {a : α} {l : List (κ × α)} {e : κ × α} (h : e ∈ insert k a l) :
    e = (k, a) ∨ e ∈ l := by
  induction l with
  | nil => simpa [insert] using h
  | cons x l ih =>
    simp only [insert] at h
    split at h
    · simpa using h
    · simp only [List.mem_cons] at h ⊢
      exact h.imp_right Or.inr
    · simp only [List.mem_cons] at h ⊢
      rcases h with h | h
      · exact Or.inr (Or.inl h)
      · exact (ih h).imp_right Or.inr

theorem ascending_insert [Std.TransOrd κ] [Std.LawfulEqOrd κ] (k : κ) (a : α)
    {l : List (κ × α)} (h : Ascending l) : Ascending (insert k a l) := by
  induction l with
  | nil => simp [insert, Ascending]
  | cons x l ih =>
    have hx : ∀ y ∈ l, compare x.1 y.1 = .lt := (List.pairwise_cons.1 h).1
    have hl : Ascending l := (List.pairwise_cons.1 h).2
    simp only [insert]
    split
    · rename_i hk
      refine List.pairwise_cons.2 ⟨fun y hy => ?_, h⟩
      rcases List.mem_cons.1 hy with rfl | hy
      · exact hk
      · exact Std.TransCmp.lt_trans hk (hx y hy)
    · rename_i hk
      refine List.pairwise_cons.2 ⟨fun y hy => ?_, hl⟩
      rw [Std.LawfulEqCmp.eq_of_compare hk]
      exact hx y hy
    · rename_i hk
      refine List.pairwise_cons.2 ⟨fun y hy => ?_, ih hl⟩
      rcases mem_insert hy with rfl | hy
      · exact Std.OrientedCmp.lt_of_gt hk
      · exact hx y hy

theorem ascending_erase (k : κ) {l : List (κ × α)} (h : Ascending l) :
    Ascending (erase k l) :=
  List.Pairwise.filter _ h

theorem ascending_adjust (k : κ) (f : α → α) {l : List (κ × α)} (h : Ascending l) :
    Ascending (adjust k f l) := by
  refine List.pairwise_map.2 (List.Pairwise.imp (fun {a b} hab => ?_) h)
  have key : ∀ e : κ × α, (if compare k e.1 = .eq then (e.1, f e.2) else e).1 = e.1 := by
    intro e; split <;> rfl
  rw [key, key]
  exact hab

section Lookup
variable [Std.LawfulEqOrd κ] [DecidableEq κ]

theorem find?_cons (k : κ) (e : κ × α) (l : List (κ × α)) :
    find? k (e :: l) = if k = e.1 then some e.2 else find? k l := by
  simp only [find?, Std.LawfulEqCmp.compare_eq_iff_eq]

theorem find?_insert (k k' : κ) (a : α) (l : List (κ × α)) :
    find? k' (insert k a l) = if k' = k then some a else find? k' l := by
  induction l with
  | nil => rw [insert, find?_cons, find?]
  | cons e l ih =>
    rw [insert]
    split
    · rw [find?_cons]
    · rename_i h
      have hk : k = e.1 := Std.LawfulEqCmp.eq_of_compare h
      rw [find?_cons, find?_cons, ← hk]
      split <;> rfl
    · rename_i h
      have hk : k ≠ e.1 := by
        intro hk
        have hself : compare e.1 e.1 = .eq := Std.ReflCmp.compare_self
        rw [hk, hself] at h
        cases h
      rw [find?_cons, find?_cons, ih]
      by_cases h1 : k' = e.1
      · rw [if_pos h1, if_pos h1, if_neg (fun h2 => hk (h2.symm.trans h1))]
      · rw [if_neg h1, if_neg h1]

theorem find?_erase (k k' : κ) (l : List (κ × α)) :
    find? k' (erase k l) = if k' = k then none else find? k' l := by
  induction l with
  | nil => rw [erase, List.filter_nil, find?, ite_self]
  | cons e l ih =>
    rw [erase] at ih ⊢
    rw [find?_cons, List.filter_cons]
    by_cases hk : k = e.1
    · rw [if_neg (by simp [hk]), ih]
      by_cases h1 : k' = k
      · rw [if_pos h1, if_pos h1]
      · rw [if_neg h1, if_neg h1, if_neg (fun h2 => h1 (h2.trans hk.symm))]
    · rw [if_pos (by simp [hk]), find?_cons, ih]
      by_cases h1 : k' = e.1
      · rw [if_pos h1, if_pos h1, if_neg (fun h2 => hk (h2.symm.trans h1))]
      · rw [if_neg h1, if_neg h1]

theorem find?_adjust (k k' : κ) (f : α → α) (l : List (κ × α)) :
    find? k' (adjust k f l) = if k' = k then (find? k' l).map f else find? k' l := by
  induction l with
  | nil => rw [adjust, List.map_nil, find?, Option.map_none, ite_self]
  | cons e l ih =>
    rw [adjust] at ih ⊢
    simp only [List.map_cons, find?_cons, Std.LawfulEqCmp.compare_eq_iff_eq] at ih ⊢
    rw [ih]
    by_cases hk : k = e.1
    · rw [if_pos hk]
      by_cases h1 : k' = e.1
      · rw [if_pos h1, if_pos h1, if_pos (h1.trans hk.symm), Option.map_some]
      · rw [if_neg h1, if_neg h1]
    · rw [if_neg hk]
      by_cases h1 : k' = e.1
      · rw [if_pos h1, if_neg (fun h2 => hk (h2.symm.trans h1)), if_pos h1]
      · rw [if_neg h1, if_neg h1]

end Lookup

end Entries

/-! ## Tables -/

/-- A finite map that lists its entries in key order. -/
structure Table (κ α : Type) [Ord κ] where
  entries : List (κ × α)
  ascending : Ascending entries

namespace Table

variable {κ α : Type} [Ord κ]

instance [DecidableEq κ] [DecidableEq α] : DecidableEq (Table κ α) := fun a b =>
  match decEq a.entries b.entries with
  | isTrue h => isTrue (by cases a; cases b; cases h; rfl)
  | isFalse h => isFalse (fun e => h (e ▸ rfl))

def empty : Table κ α := ⟨[], List.Pairwise.nil⟩

instance : Inhabited (Table κ α) := ⟨empty⟩

instance [Repr κ] [Repr α] : Repr (Table κ α) := ⟨fun t n => reprPrec t.entries n⟩

def get? (t : Table κ α) (k : κ) : Option α := Entries.find? k t.entries

def contains (t : Table κ α) (k : κ) : Bool := (t.get? k).isSome

def insert [Std.TransOrd κ] [Std.LawfulEqOrd κ] (t : Table κ α) (k : κ) (a : α) : Table κ α :=
  ⟨Entries.insert k a t.entries, Entries.ascending_insert k a t.ascending⟩

def erase (t : Table κ α) (k : κ) : Table κ α :=
  ⟨Entries.erase k t.entries, Entries.ascending_erase k t.ascending⟩

def adjust (t : Table κ α) (k : κ) (f : α → α) : Table κ α :=
  ⟨Entries.adjust k f t.entries, Entries.ascending_adjust k f t.ascending⟩

def keys (t : Table κ α) : List κ := t.entries.map (·.1)

def values (t : Table κ α) : List α := t.entries.map (·.2)

def size (t : Table κ α) : Nat := t.entries.length

def isEmpty (t : Table κ α) : Bool := t.entries.isEmpty

def ofList [Std.TransOrd κ] [Std.LawfulEqOrd κ] (l : List (κ × α)) : Table κ α :=
  l.foldl (fun t e => t.insert e.1 e.2) empty

@[ext] theorem ext_entries {s t : Table κ α} (h : s.entries = t.entries) : s = t := by
  cases s; cases t; cases h; rfl

@[simp] theorem get?_empty (k : κ) : (empty : Table κ α).get? k = none := rfl

@[simp] theorem entries_empty : (empty : Table κ α).entries = [] := rfl

section Lookup
variable [Std.LawfulEqOrd κ] [DecidableEq κ]

theorem get?_insert [Std.TransOrd κ] (t : Table κ α) (k k' : κ) (a : α) :
    (t.insert k a).get? k' = if k' = k then some a else t.get? k' :=
  Entries.find?_insert k k' a t.entries

@[simp] theorem get?_insert_self [Std.TransOrd κ] (t : Table κ α) (k : κ) (a : α) :
    (t.insert k a).get? k = some a := by
  rw [get?_insert, if_pos rfl]

theorem get?_erase (t : Table κ α) (k k' : κ) :
    (t.erase k).get? k' = if k' = k then none else t.get? k' :=
  Entries.find?_erase k k' t.entries

@[simp] theorem get?_erase_self (t : Table κ α) (k : κ) : (t.erase k).get? k = none := by
  rw [get?_erase, if_pos rfl]

theorem get?_adjust (t : Table κ α) (k k' : κ) (f : α → α) :
    (t.adjust k f).get? k' = if k' = k then (t.get? k').map f else t.get? k' :=
  Entries.find?_adjust k k' f t.entries

end Lookup

end Table

end CertRuns
