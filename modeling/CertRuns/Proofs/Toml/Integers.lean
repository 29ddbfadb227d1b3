import CertRuns.Toml.Document

/-!
# The integers of a document

Every integer of a document has 64 bits with its sign, however deep it stands: the readers of
numbers refuse others, and putting tables together makes no new values.

* `Fits`, `Table.Fits` : all integers of a value, and of a table, have 64 bits;
* `number?_fits`, `value?_fits` : reading numbers and values;
* `Table.assign?_fits`, `Table.openTable?_fits`, `Table.openItem?_fits` : putting tables together;
* `parse?_fits` : the table of a document.
-/

namespace CertRuns.Toml

/-! ## Values and tables -/

/-- Every integer in a value has 64 bits. -/
inductive Fits : Toml → Prop where
  | text (s : String) : Fits (.text s)
  | integer {n : Int} (low : -9223372036854775808 ≤ n) (high : n < 9223372036854775808) :
      Fits (.integer n)
  | float (x : Double) : Fits (.float x)
  | bool (b : Bool) : Fits (.bool b)
  | moment : Fits .moment
  | array {items : List Toml} (h : ∀ v ∈ items, Fits v) : Fits (.array items)
  | table (origin : Origin) {members : List (String × Toml)} (h : ∀ m ∈ members, Fits m.2) :
    Fits (.table origin members)
  | tables {items : List (List (String × Toml))} (h : ∀ t ∈ items, ∀ m ∈ t, Fits m.2) :
    Fits (.tables items)

namespace Table

def Fits (t : Table) : Prop := ∀ m ∈ t, m.2.Fits

variable {t t' : Table} {key : String} {path : List String} {v : Toml} {f : Table → Option Table}

theorem fits_nil : Fits [] := fun _ hm => absurd hm List.not_mem_nil

theorem Fits.lookup (ht : Fits t) (h : t.lookup key = some v) : v.Fits := by
  induction t with
  | nil => cases h
  | cons m t ih =>
    obtain ⟨name, w⟩ := m
    rw [List.lookup_cons] at h
    split at h
    · cases h
      exact ht (name, v) List.mem_cons_self
    · exact ih (fun m hm => ht m (List.mem_cons_of_mem _ hm)) h

theorem Fits.append (ht : Fits t) (hv : v.Fits) : Fits (t ++ [(key, v)]) := by
  intro m hm
  rcases List.mem_append.1 hm with hm | hm
  · exact ht m hm
  · rw [List.mem_singleton.1 hm]
    exact hv

theorem Fits.put (ht : Fits t) (hv : v.Fits) : Fits (t.put key v) := by
  unfold Table.put
  split
  · intro m hm
    obtain ⟨m', hm', rfl⟩ := List.mem_map.1 hm
    split
    · exact hv
    · exact ht m' hm'
  · exact ht.append hv

/-- What changes the last table on a way keeps the whole table in order. -/
theorem alongHeader?_fits (hf : ∀ t t', Fits t → f t = some t' → Fits t') (ht : Fits t)
    (h : alongHeader? f path t = some t') : Fits t' := by
  induction path generalizing t t' with
  | nil => exact hf t t' ht h
  | cons key path ih =>
    rw [alongHeader?] at h
    split at h
    · obtain ⟨inner, hinner, h⟩ := Option.bind_eq_some_iff.1 h
      cases h
      exact ht.put (.table _ (ih fits_nil hinner))
    · cases h
    · rename_i hlookup
      obtain ⟨inner, hinner, h⟩ := Option.bind_eq_some_iff.1 h
      cases h
      cases ht.lookup hlookup with
      | table _ hmembers => exact ht.put (.table _ (ih hmembers hinner))
    · rename_i hlookup
      obtain ⟨inner, hinner, h⟩ := Option.bind_eq_some_iff.1 h
      cases h
      cases ht.lookup hlookup with
      | tables hitems =>
        rw [List.forall_mem_cons] at hitems
        exact ht.put (.tables (List.forall_mem_cons.2 ⟨ih hitems.1 hinner, hitems.2⟩))
    · cases h

theorem alongKey?_fits {origin : Origin} (hf : ∀ t t', Fits t → f t = some t' → Fits t')
    (ht : Fits t) (h : alongKey? f origin path t = some t') : Fits t' := by
  induction path generalizing origin t t' with
  | nil =>
    rw [alongKey?] at h
    split at h
    · exact hf t t' ht h
    · cases h
  | cons key path ih =>
    rw [alongKey?] at h
    split at h
    · obtain ⟨inner, hinner, h⟩ := Option.bind_eq_some_iff.1 h
      cases h
      exact ht.put (.table _ (ih fits_nil hinner))
    · cases h
    · cases h
    · rename_i hlookup
      obtain ⟨inner, hinner, h⟩ := Option.bind_eq_some_iff.1 h
      cases h
      cases ht.lookup hlookup with
      | table _ hmembers => exact ht.put (.table _ (ih hmembers hinner))
    · rename_i hlookup
      obtain ⟨inner, hinner, h⟩ := Option.bind_eq_some_iff.1 h
      cases h
      cases ht.lookup hlookup with
      | tables hitems =>
        rw [List.forall_mem_cons] at hitems
        exact ht.put (.tables (List.forall_mem_cons.2 ⟨ih hitems.1 hinner, hitems.2⟩))
    · cases h

theorem assign?_fits {key : List String} (ht : Fits t) (hv : v.Fits)
    (h : t.assign? key v = some t') : Fits t' := by
  unfold assign? at h
  split at h
  · cases h
  · refine alongKey?_fits (fun t t' ht h => ?_) ht h
    unfold add? at h
    split at h
    · cases h
    · cases h
      exact ht.append hv

theorem openTable?_fits (ht : Fits t) (h : t.openTable? path = some t') : Fits t' := by
  unfold openTable? at h
  split at h
  · cases h
  · refine alongHeader?_fits (fun t t' ht h => ?_) ht h
    split at h
    · cases h
      exact ht.put (.table _ fits_nil)
    · rename_i hlookup
      cases h
      cases ht.lookup hlookup with
      | table _ hmembers => exact ht.put (.table _ hmembers)
    · cases h

theorem openItem?_fits (ht : Fits t) (h : t.openItem? path = some t') : Fits t' := by
  unfold openItem? at h
  split at h
  · cases h
  · refine alongHeader?_fits (fun t t' ht h => ?_) ht h
    split at h
    · cases h
      exact ht.put (.tables fun t ht => by rw [List.mem_singleton.1 ht]; exact fits_nil)
    · rename_i hlookup
      cases h
      cases ht.lookup hlookup with
      | tables hitems => exact ht.put (.tables (List.forall_mem_cons.2 ⟨fits_nil, hitems⟩))
    · cases h

end Table

/-! ## Reading numbers -/

theorem integer64?_fits {n m : Int} (h : integer64? n = some m) : (Toml.integer m).Fits := by
  unfold integer64? at h
  split at h
  · rename_i hbounds
    cases h
    exact .integer (by omega) (by omega)
  · cases h

theorem based?_fits {base : Nat} {digit? : Char → Option Nat} {s r : List Char} {n : Int}
    (h : based? base digit? s = some (n, r)) : (Toml.integer n).Fits := by
  obtain ⟨⟨ds, r'⟩, -, h⟩ := Option.bind_eq_some_iff.1 h
  obtain ⟨m, hm, h⟩ := Option.bind_eq_some_iff.1 h
  cases h
  exact integer64?_fits hm

theorem magnitude?_fits {negative : Bool} {s r : List Char} {n : Int}
    (h : magnitude? negative s = some (.inl n, r)) : (Toml.integer n).Fits := by
  obtain ⟨⟨whole, r₁⟩, -, h⟩ := Option.bind_eq_some_iff.1 h
  dsimp only at h
  split at h
  all_goals
    obtain ⟨⟨fraction, r₂⟩, -, h⟩ := Option.bind_eq_some_iff.1 h
    obtain ⟨⟨e, r₃⟩, -, h⟩ := Option.bind_eq_some_iff.1 h
    dsimp only at h
    split at h
    · obtain ⟨m, hm, h⟩ := Option.bind_eq_some_iff.1 h
      cases h
      exact integer64?_fits hm
    · obtain ⟨x, -, h⟩ := Option.bind_eq_some_iff.1 h
      cases h

/-- A number in a base of its own. -/
theorem based?_fits_of_map {base : Nat} {digit? : Char → Option Nat} {s r : List Char} {n : Int}
    (h : (based? base digit? s).map (fun (m, r) => ((.inl m : Int ⊕ Double), r)) =
      some (.inl n, r)) : (Toml.integer n).Fits := by
  obtain ⟨⟨m, r'⟩, hbased, h⟩ := Option.map_eq_some_iff.1 h
  cases h
  exact based?_fits hbased

theorem number?_fits {s r : List Char} {n : Int} (h : number? s = some (.inl n, r)) :
    (Toml.integer n).Fits := by
  unfold number? at h
  split at h
  · exact based?_fits_of_map h
  · exact based?_fits_of_map h
  · exact based?_fits_of_map h
  · dsimp only at h
    split at h
    · obtain ⟨_, -, h⟩ := Option.map_eq_some_iff.1 h
      cases h
    · obtain ⟨_, -, h⟩ := Option.map_eq_some_iff.1 h
      cases h
    · exact magnitude?_fits h

/-! ## Reading values -/

section Values

variable {value : List Char → Option (Toml × List Char)}

theorem items?_fits (hvalue : ∀ s v r, value s = some (v, r) → v.Fits) {fuel : Nat}
    {s r : List Char} {vs : List Toml} (h : items? value fuel s = some (vs, r)) :
    ∀ v ∈ vs, v.Fits := by
  induction fuel generalizing s vs r with
  | zero => cases h
  | succ fuel ih =>
    obtain ⟨r₁, -, h⟩ := Option.bind_eq_some_iff.1 h
    dsimp only at h
    split at h
    · cases h
      exact fun v hv => absurd hv List.not_mem_nil
    · obtain ⟨⟨v, r₂⟩, hv, h⟩ := Option.bind_eq_some_iff.1 h
      obtain ⟨r₃, -, h⟩ := Option.bind_eq_some_iff.1 h
      dsimp only at h
      split at h
      · obtain ⟨⟨ws, r₄⟩, hws, h⟩ := Option.bind_eq_some_iff.1 h
        cases h
        exact List.forall_mem_cons.2 ⟨hvalue _ _ _ hv, ih hws⟩
      · cases h
        exact List.forall_mem_singleton.2 (hvalue _ _ _ hv)
      · cases h

theorem members?_fits (hvalue : ∀ s v r, value s = some (v, r) → v.Fits) {fuel : Nat}
    {s r : List Char} {t t' : Table} (ht : t.Fits)
    (h : members? value fuel t s = some (t', r)) : t'.Fits := by
  induction fuel generalizing s t with
  | zero => cases h
  | succ fuel ih =>
    obtain ⟨⟨key, r₁⟩, -, h⟩ := Option.bind_eq_some_iff.1 h
    obtain ⟨r₂, -, h⟩ := Option.bind_eq_some_iff.1 h
    obtain ⟨⟨v, r₃⟩, hv, h⟩ := Option.bind_eq_some_iff.1 h
    obtain ⟨t₁, ht₁, h⟩ := Option.bind_eq_some_iff.1 h
    have hfits := Table.assign?_fits ht (hvalue _ _ _ hv) ht₁
    split at h
    · exact ih hfits h
    · cases h
      exact hfits
    · cases h

end Values

/-- A value has no other integers than its parts, which nest less deeply. -/
theorem value?_fits_of {depth : Nat} {s r : List Char} {v : Toml}
    (hparts : ∀ d, depth = d + 1 → ∀ s v r, value? d s = some (v, r) → v.Fits)
    (h : value? depth s = some (v, r)) : v.Fits := by
  unfold value? at h
  split at h
  · obtain ⟨⟨t, r₁⟩, -, h⟩ := Option.map_eq_some_iff.1 h
    cases h
    exact .text t
  · obtain ⟨⟨t, r₁⟩, -, h⟩ := Option.map_eq_some_iff.1 h
    cases h
    exact .text t
  · obtain ⟨r₁, -, h⟩ := Option.map_eq_some_iff.1 h
    cases h
    exact .bool true
  · obtain ⟨r₁, -, h⟩ := Option.map_eq_some_iff.1 h
    cases h
    exact .bool false
  · split at h
    · cases h
    · obtain ⟨⟨vs, r₁⟩, hvs, h⟩ := Option.map_eq_some_iff.1 h
      cases h
      exact .array (items?_fits (hparts _ rfl) hvs)
  · split at h
    · cases h
    · split at h
      · cases h
        exact .table .inline Table.fits_nil
      · obtain ⟨⟨t, r₁⟩, ht, h⟩ := Option.map_eq_some_iff.1 h
        cases h
        exact .table .inline (members?_fits (hparts _ rfl) Table.fits_nil ht)
  · split at h
    · obtain ⟨r₁, -, h⟩ := Option.map_eq_some_iff.1 h
      cases h
      exact .moment
    · split at h
      · rename_i hnumber
        cases h
        exact number?_fits hnumber
      · cases h
        exact .float _
      · cases h

theorem value?_fits {depth : Nat} {s r : List Char} {v : Toml}
    (h : value? depth s = some (v, r)) : v.Fits := by
  induction depth generalizing s v r with
  | zero => exact value?_fits_of (fun d hd => by cases hd) h
  | succ depth ih =>
    refine value?_fits_of (fun d hd s v r h => ?_) h
    cases hd
    exact ih h

/-! ## Reading documents -/

theorem header?_fits {d d' : Reader} {s r : List Char} (hd : d.root.Fits)
    (h : header? d s = some (d', r)) : d'.root.Fits := by
  unfold header? at h
  split at h
  · obtain ⟨⟨path, r₁⟩, -, h⟩ := Option.bind_eq_some_iff.1 h
    obtain ⟨r₂, -, h⟩ := Option.bind_eq_some_iff.1 h
    obtain ⟨r₃, -, h⟩ := Option.bind_eq_some_iff.1 h
    obtain ⟨root, hroot, h⟩ := Option.bind_eq_some_iff.1 h
    cases h
    exact Table.openItem?_fits hd hroot
  · obtain ⟨⟨path, r₁⟩, -, h⟩ := Option.bind_eq_some_iff.1 h
    obtain ⟨r₂, -, h⟩ := Option.bind_eq_some_iff.1 h
    obtain ⟨root, hroot, h⟩ := Option.bind_eq_some_iff.1 h
    cases h
    exact Table.openTable?_fits hd hroot

theorem assignment?_fits {d d' : Reader} {s r : List Char} (hd : d.root.Fits)
    (h : assignment? d s = some (d', r)) : d'.root.Fits := by
  obtain ⟨⟨key, r₁⟩, -, h⟩ := Option.bind_eq_some_iff.1 h
  obtain ⟨r₂, -, h⟩ := Option.bind_eq_some_iff.1 h
  obtain ⟨⟨v, r₃⟩, hv, h⟩ := Option.bind_eq_some_iff.1 h
  obtain ⟨root, hroot, h⟩ := Option.bind_eq_some_iff.1 h
  cases h
  exact Table.alongHeader?_fits (fun t t' ht h => Table.assign?_fits ht (value?_fits hv) h) hd
    hroot

theorem line?_fits {d d' : Reader} {s r : List Char} (hd : d.root.Fits)
    (h : line? d s = some (d', r)) : d'.root.Fits := by
  unfold line? at h
  dsimp only at h
  split at h
  all_goals
    obtain ⟨⟨d₁, r₁⟩, hd₁, h⟩ := Option.bind_eq_some_iff.1 h
    obtain ⟨r₂, -, h⟩ := Option.bind_eq_some_iff.1 h
    cases h
  · cases hd₁
    exact hd
  · cases hd₁
    exact hd
  · cases hd₁
    exact hd
  · cases hd₁
    exact hd
  · exact header?_fits hd hd₁
  · exact assignment?_fits hd hd₁

theorem lines?_fits {fuel : Nat} {d d' : Reader} {s : List Char} (hd : d.root.Fits)
    (h : lines? fuel d s = some d') : d'.root.Fits := by
  induction fuel generalizing d s with
  | zero => cases h
  | succ fuel ih =>
    rw [lines?] at h
    split at h
    · cases h
      exact hd
    · obtain ⟨⟨d₁, r⟩, hd₁, h⟩ := Option.bind_eq_some_iff.1 h
      exact ih (line?_fits hd hd₁) h

theorem parse?_fits {s : String} {t : Table} (h : parse? s = some t) : t.Fits := by
  obtain ⟨d, hd, rfl⟩ := Option.map_eq_some_iff.1 h
  exact lines?_fits Table.fits_nil hd

end CertRuns.Toml
