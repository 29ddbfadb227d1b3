import CertRuns.Json.Decode

/-!
# Records that are written are read again

A record is written from its slots: the names of its fields, each with a value or without one. What
is read under a name is what stands in the slot of that name, and a field that is left out is read
as the value for which it is left out.

* `list?_ofList`, `table?_ofTable`, `natural?_ofNat`, `integer?_ofInt` : plain values;
* `present`, `members?_present`, `lookup_present_cons_self` : the members of a record by its slots;
* `textSlot`, `listSlot`, `optionSlot`, `flagSlot`, `tableSlot` : slots that may be empty, and what
  is read from them.
-/

namespace CertRuns

/-! ## Tables -/

namespace Entries

variable {κ α : Type} [Ord κ] [Std.TransOrd κ]

/-- A key above all others comes last. -/
theorem insert_eq_append {k : κ} {a : α} {l : List (κ × α)}
    (h : ∀ e ∈ l, compare e.1 k = .lt) : insert k a l = l ++ [(k, a)] := by
  induction l with
  | nil => rfl
  | cons e l ih =>
    have hgt : compare k e.1 = .gt := Std.OrientedCmp.gt_of_lt (h e (List.mem_cons_self ..))
    rw [insert, hgt]
    simp only [List.cons_append, List.cons.injEq, true_and]
    exact ih fun x hx => h x (List.mem_cons_of_mem _ hx)

end Entries

namespace Table

variable {κ α : Type} [Ord κ] [Std.TransOrd κ] [Std.LawfulEqOrd κ]

theorem entries_foldl_insert (l : List (κ × α)) (t : Table κ α) (h : Ascending (t.entries ++ l)) :
    (l.foldl (fun t e => t.insert e.1 e.2) t).entries = t.entries ++ l := by
  induction l generalizing t with
  | nil => simp
  | cons e l ih =>
    have hlast : (t.insert e.1 e.2).entries = t.entries ++ [e] :=
      Entries.insert_eq_append fun x hx =>
        (List.pairwise_append.1 h).2.2 x hx e (List.mem_cons_self ..)
    have hrest : t.entries ++ e :: l = (t.insert e.1 e.2).entries ++ l := by
      rw [hlast, List.append_assoc, List.singleton_append]
    rw [List.foldl_cons, ih _ (hrest ▸ h), hrest]

/-- A table is made of its entries. -/
theorem ofList_entries (t : Table κ α) : ofList t.entries = t :=
  ext_entries (entries_foldl_insert t.entries empty t.ascending)

end Table

namespace Json

/-! ## Plain values -/

@[simp] theorem text?_ofText (s : String) : text? (ofText s) = some s := rfl

@[simp] theorem bool?_bool (b : Bool) : bool? (.bool b) = some b := rfl

@[simp] theorem choice?_ofText (s : String) : choice? (ofText s) = some s := rfl

theorem integer?_ofInt {low high n : Int} (h : low ≤ n ∧ n < high) :
    integer? low high (ofInt n) = some n := by
  simp [integer?, ofInt, Numeral.int?_ofInt, h]

theorem natural?_ofNat {n : Nat} (h : n < longBound) : natural? (ofNat n) = some n := by
  have hbound : (0 : Int) ≤ n ∧ (n : Int) < longBound := ⟨Int.natCast_nonneg n, by exact_mod_cast h⟩
  have hread : integer? 0 longBound (ofNat n) = some (n : Int) := by
    simp [integer?, ofNat, Numeral.int?_ofNat, Option.filter, hbound]
  rw [natural?, hread, Option.map_some, Int.toNat_natCast]

section Containers
variable {α : Type} {f : α → Json} {g : Json → Option α}

theorem list?_ofList {l : List α} (h : ∀ a ∈ l, g (f a) = some a) :
    list? g (ofList f l) = some l := by
  induction l with
  | nil => rfl
  | cons a l ih =>
    have hrest := ih fun b hb => h b (List.mem_cons_of_mem _ hb)
    rw [ofList, list?] at hrest ⊢
    simp [h a (List.mem_cons_self ..), hrest]

theorem table?_ofTable {t : Table String α} (h : ∀ e ∈ t.entries, g (f e.2) = some e.2) :
    table? g (ofTable f t) = some t := by
  have hentries : ∀ l : List (String × α), (∀ e ∈ l, g (f e.2) = some e.2) →
      ((l.map fun e => (e.1, f e.2)).map fun m => (some m.1, m.2)).mapM (binding? g) = some l := by
    intro l
    induction l with
    | nil => exact fun _ => rfl
    | cons e l ih =>
      intro hl
      have hrest := ih fun x hx => hl x (List.mem_cons_of_mem _ hx)
      simp only [List.map_cons, List.mapM_cons, binding?, hl e (List.mem_cons_self ..), hrest]
      rfl
  rw [ofTable, record, table?, hentries t.entries h, Option.map_some, Table.ofList_entries]

end Containers

/-! ## Members by slots -/

def present (slots : List (String × Option Json)) : Members :=
  slots.filterMap fun slot => slot.2.map (slot.1, ·)

/-- Where no part is left out, every slot has a value. -/
theorem record_eq_present (ms : Members) :
    record ms = record (present (ms.map fun m => (m.1, some m.2))) := by
  rw [present, List.filterMap_map]
  congr 1
  exact (List.filterMap_some).symm

@[simp] theorem present_append (slots slots' : List (String × Option Json)) :
    present slots ++ present slots' = present (slots ++ slots') := by
  simp [present]

theorem names_present_sublist (slots : List (String × Option Json)) :
    ((present slots).map (·.1)).Sublist (slots.map (·.1)) := by
  induction slots with
  | nil => exact List.Sublist.refl _
  | cons slot slots ih =>
    obtain ⟨name, o⟩ := slot
    cases o with
    | none => exact ih.cons name
    | some v => exact ih.cons_cons name

theorem lookup_eq_none {ms : Members} {name : String} (h : name ∉ ms.map (·.1)) :
    ms.lookup name = none := by
  rw [List.lookup_eq_none_iff]
  intro m hm
  have hne : name ≠ m.1 := by
    rintro rfl
    exact h (List.mem_map_of_mem hm)
  simpa using hne

/-- A record with different names, all of them fields, gives its members as they are. -/
theorem fieldsOf?_record {fields : List String} {ms : Members} (hnodup : (ms.map (·.1)).Nodup)
    (hfields : ∀ name ∈ ms.map (·.1), name ∈ fields) :
    fieldsOf? fields id (ms.map fun m => (some m.1, m.2)) = some ms := by
  induction ms with
  | nil => rfl
  | cons m ms ih =>
    rw [List.map_cons, List.nodup_cons] at hnodup
    have hrest := ih hnodup.2 fun name hname => hfields name (List.mem_cons_of_mem _ hname)
    have hmem : m.1 ∈ fields := hfields m.1 (List.mem_cons_self ..)
    simp [fieldsOf?, hrest, hmem, lookup_eq_none hnodup.1]

@[simp] theorem members?_present {fields : List String} {slots : List (String × Option Json)}
    (hfields : slots.map (·.1) = fields) (hnodup : fields.Nodup) :
    members? fields id (record (present slots)) = some (present slots) := by
  have hsub := names_present_sublist slots
  rw [hfields] at hsub
  exact fieldsOf?_record (hsub.nodup hnodup) fun _ hname => hsub.subset hname

@[simp] theorem lookup_present_nil (name : String) : (present []).lookup name = none := rfl

@[simp] theorem lookup_present_cons_self (name : String) (o : Option Json)
    (slots : List (String × Option Json)) :
    (present ((name, o) :: slots)).lookup name = o.or ((present slots).lookup name) := by
  cases o <;> simp [present]

@[simp] theorem lookup_present_cons_ne {name name' : String} (h : name ≠ name') (o : Option Json)
    (slots : List (String × Option Json)) :
    (present ((name', o) :: slots)).lookup name = (present slots).lookup name := by
  have hbeq : (name == name') = false := beq_false_of_ne h
  cases o <;> simp [present, List.lookup_cons, hbeq]

@[simp] theorem Members.optional_eq_elim {α : Type} (m : Members) (name : String)
    (f : Json → Option α) (absent : α) :
    m.optional name f absent = (m.lookup name).elim (some absent) f := by
  unfold optional
  cases m.lookup name <;> rfl

theorem Members.required_eq_elim {α : Type} (m : Members) (name : String) (f : Json → Option α) :
    m.required name f = (m.lookup name).elim none f := by
  unfold required
  cases m.lookup name <;> rfl

@[simp] theorem Members.required_present_cons_self {α : Type} (name : String) (v : Json)
    (slots : List (String × Option Json)) (f : Json → Option α) :
    required (present ((name, some v) :: slots)) name f = f v := by
  simp [required]

@[simp] theorem Members.required_present_cons_ne {α : Type} {name name' : String}
    (h : name ≠ name') (o : Option Json) (slots : List (String × Option Json))
    (f : Json → Option α) :
    required (present ((name', o) :: slots)) name f = required (present slots) name f := by
  simp [required, h]

/-! ## Slots that may be empty -/

def textSlot (s : String) : Option Json := if s = "" then none else some (ofText s)

def listSlot {α : Type} (f : α → Json) (l : List α) : Option Json :=
  if l.isEmpty then none else some (ofList f l)

def optionSlot {α : Type} (f : α → Json) (o : Option α) : Option Json := o.map f

def flagSlot (b : Bool) : Option Json := if b then some (.bool true) else none

def tableSlot {α : Type} (f : α → Json) (t : Table String α) : Option Json :=
  if t.isEmpty then none else some (ofTable f t)

@[simp] theorem field_eq_present (name : String) (v : Json) :
    field name v = present [(name, some v)] := rfl

@[simp] theorem textField_eq_present (name s : String) :
    textField name s = present [(name, textSlot s)] := by
  unfold textField textSlot
  split <;> rfl

@[simp] theorem flagField_eq_present (name : String) (b : Bool) :
    flagField name b = present [(name, flagSlot b)] := by
  cases b <;> rfl

section Parts
variable {α : Type} {f : α → Json} {g : Json → Option α}

@[simp] theorem listField_eq_present (name : String) (l : List α) :
    listField name f l = present [(name, listSlot f l)] := by
  cases l <;> rfl

@[simp] theorem optionField_eq_present (name : String) (o : Option α) :
    optionField name f o = present [(name, optionSlot f o)] := by
  cases o <;> rfl

@[simp] theorem tableField_eq_present (name : String) (t : Table String α) :
    tableField name f t = present [(name, tableSlot f t)] := by
  unfold tableField tableSlot
  split <;> rfl

@[simp] theorem elim_textSlot (s : String) : (textSlot s).elim (some "") text? = some s := by
  unfold textSlot
  split
  · rename_i hs
    rw [hs]
    rfl
  · rfl

@[simp] theorem elim_flagSlot (b : Bool) : (flagSlot b).elim (some false) bool? = some b := by
  cases b <;> rfl

theorem elim_listSlot {l : List α} (h : ∀ a ∈ l, g (f a) = some a) :
    (listSlot f l).elim (some []) (list? g) = some l := by
  cases l with
  | nil => rfl
  | cons a l => exact list?_ofList h

theorem elim_tableSlot {t : Table String α} (h : ∀ e ∈ t.entries, g (f e.2) = some e.2) :
    (tableSlot f t).elim (some .empty) (table? g) = some t := by
  unfold tableSlot
  split
  · rename_i hempty
    rw [Option.elim_none, Option.some.injEq]
    exact (Table.ext_entries (List.isEmpty_iff.1 hempty)).symm
  · exact table?_ofTable h

/-- A part whose decoder refuses `null` may be missing. -/
theorem elim_optionSlot {o : Option α} (hnull : g .null = none)
    (h : ∀ a ∈ o, g (f a) = some a) :
    (optionSlot f o).elim (some none) (nullable? g) = some o := by
  cases o with
  | none => rfl
  | some a =>
    have ha : g (f a) = some a := h a rfl
    have hread : nullable? g (f a) = (g (f a)).map some := by
      unfold nullable?
      split
      · rename_i hj
        rw [hj, hnull] at ha
        cases ha
      · rfl
    rw [optionSlot, Option.map_some, Option.elim_some, hread, ha, Option.map_some]

end Parts

end Json

end CertRuns
