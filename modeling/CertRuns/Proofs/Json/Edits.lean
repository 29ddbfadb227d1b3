import CertRuns.Proofs.Json.Fields
import CertRuns.Proofs.Json.Records
import CertRuns.Proofs.Table
import Mathlib.Logic.Relation

/-!
# Edits that a decoder does not notice

A record reads its own fields and skips all other members. So members that it does not know may come
and go, and neighbours with different names may change their places; what is read stays the same.
Inside a field the same is said of the decoder of the field.

* `Swapped`, `swaps_of_perm` : members with different names in another order;
* `RecordEdit`, `ListEdit`, `TableEdit` : edits of a value, by those of its parts;
* `Members.Agree` : the same fields up to edits; `RecordEdit.members?`;
* `RecordEdit.read_eq`, `ListEdit.list?`, `TableEdit.table?` : what is read stays the same;
* `kept` : a value as a map keeps it; `Rearranged` : members in another order at any depth;
  `Rearranged.kept`, `Rearranged.isFree`.
-/

namespace CertRuns.Json

variable {fields : List String} {canonical : String → String} {α β : Type}

/-! ## Members in another order -/

/-- Two neighbours with different names have changed their places. -/
inductive Swapped : List (Option String × Json) → List (Option String × Json) → Prop
  | mk (before after : List (Option String × Json)) {m m' : Option String × Json}
      (h : m.1 ≠ m'.1) : Swapped (before ++ m :: m' :: after) (before ++ m' :: m :: after)

theorem Swapped.cons (m : Option String × Json) {ms ms' : List (Option String × Json)}
    (h : Swapped ms ms') : Swapped (m :: ms) (m :: ms') := by
  obtain ⟨before, after, h⟩ := h
  exact .mk (m :: before) after h

theorem swaps_of_perm {ms ms' : List (Option String × Json)} (h : ms.Perm ms')
    (hnames : (ms.map (·.1)).Nodup) : Relation.ReflTransGen Swapped ms ms' := by
  induction h with
  | nil => exact .refl
  | cons m _ ih =>
    rw [List.map_cons, List.nodup_cons] at hnames
    exact (ih hnames.2).lift (m :: ·) fun _ _ => Swapped.cons m
  | swap m m' ms =>
    rw [List.map_cons, List.map_cons, List.nodup_cons, List.mem_cons, not_or] at hnames
    exact .single (.mk [] ms hnames.1.1)
  | trans h _ ih ih' =>
    have hmid := (h.map (·.1)).nodup_iff.mp hnames
    exact (ih hnames).trans (ih' hmid)

/-! ## Edits -/

/-- No edit at all. -/
def NoEdit (_ _ : Json) : Prop := False

/-- An edit of a record: a member that names no field comes in or goes away; neighbours with
different names change their places; or a field is edited, in a member or in its place. -/
inductive RecordEdit (fields : List String) (canonical : String → String)
    (Part : String → Json → Json → Prop) : Json → Json → Prop
  | insert (before after : List (Option String × Json)) {name : String}
      (h : canonical name ∉ fields) (v : Json) :
      RecordEdit fields canonical Part (.object (before ++ after))
        (.object (before ++ (some name, v) :: after))
  | remove (before after : List (Option String × Json)) {name : String}
      (h : canonical name ∉ fields) (v : Json) :
      RecordEdit fields canonical Part (.object (before ++ (some name, v) :: after))
        (.object (before ++ after))
  | swap {ms ms' : List (Option String × Json)} (h : Swapped ms ms') :
      RecordEdit fields canonical Part (.object ms) (.object ms')
  | member (before after : List (Option String × Json)) {name : String} {v v' : Json}
      (h : Part (canonical name) v v') :
      RecordEdit fields canonical Part (.object (before ++ (some name, v) :: after))
        (.object (before ++ (some name, v') :: after))
  | place (before after : List Json) {name : String} (hname : fields[before.length]? = some name)
      {v v' : Json} (h : Part name v v') :
      RecordEdit fields canonical Part (.array (before ++ v :: after))
        (.array (before ++ v' :: after))

/-- An edit of an item of a list. -/
inductive ListEdit (Item : Json → Json → Prop) : Json → Json → Prop
  | item (before after : List Json) {v v' : Json} (h : Item v v') :
      ListEdit Item (.array (before ++ v :: after)) (.array (before ++ v' :: after))

/-- An edit of a table: neighbours with different names change their places, or an entry is
edited. -/
inductive TableEdit (Entry : Json → Json → Prop) : Json → Json → Prop
  | swap {ms ms' : List (Option String × Json)} (h : Swapped ms ms') :
      TableEdit Entry (.object ms) (.object ms')
  | entry (before after : List (Option String × Json)) {key : Option String} {v v' : Json}
      (h : Entry v v') :
      TableEdit Entry (.object (before ++ (key, v) :: after))
        (.object (before ++ (key, v') :: after))

/-! ## Records -/

theorem Swapped.symm {ms ms' : List (Option String × Json)} (h : Swapped ms ms') :
    Swapped ms' ms := by
  obtain ⟨before, after, h⟩ := h
  exact .mk before after h.symm

theorem Swapped.perm {ms ms' : List (Option String × Json)} (h : Swapped ms ms') : ms.Perm ms' := by
  obtain ⟨before, after, _⟩ := h
  exact (List.Perm.swap _ _ after).append_left before

theorem SameField.symm {key key' : Option String} (h : SameField fields canonical key key') :
    SameField fields canonical key' key := by
  obtain ⟨name, hname, hkey, hkey'⟩ := h
  exact ⟨name, hname, hkey', hkey⟩

/-- A name of no field is not another name of one. -/
theorem not_sameField {name : String} (h : canonical name ∉ fields) (key : Option String) :
    ¬ SameField fields canonical (some name) key := by
  rintro ⟨field, hfield, hname, -⟩
  exact h (Option.some.inj hname ▸ hfield)

section Unknown
variable {name : String} (h : canonical name ∉ fields) (before after : List (Option String × Json))
  (v : Json)
include h

theorem isRecord_insert : IsRecord fields canonical (.object (before ++ (some name, v) :: after)) ↔
    IsRecord fields canonical (.object (before ++ after)) := by
  have hnone := not_sameField h
  simp only [IsRecord, List.map_append, List.map_cons, List.forall_mem_append,
    List.forall_mem_cons, List.pairwise_append, List.pairwise_cons, Option.isSome_some, true_and]
  refine and_congr_right fun _ => and_congr_right fun _ => ?_
  constructor
  · rintro ⟨⟨-, hafter⟩, hacross⟩
    exact ⟨hafter, fun key hkey => (hacross key hkey).2⟩
  · rintro ⟨hafter, hacross⟩
    refine ⟨⟨fun key _ => hnone key, hafter⟩, fun key hkey => ⟨fun hsame => ?_, hacross key hkey⟩⟩
    exact hnone key hsame.symm

theorem gives_insert {field : String} (hfield : field ∈ fields) (w : Json) :
    Gives fields canonical field w (.object (before ++ (some name, v) :: after)) ↔
      Gives fields canonical field w (.object (before ++ after)) := by
  refine exists_congr fun key => and_congr_left fun hkey => ?_
  have hne : (some key, w) ≠ (some name, v) := by
    intro heq
    cases heq
    exact h (hkey ▸ hfield)
  simp [hne]

end Unknown

theorem getElem?_replaced {before : List Json} {i : Nat} (h : i ≠ before.length) (v v' : Json)
    (after : List Json) : (before ++ v :: after)[i]? = (before ++ v' :: after)[i]? := by
  rcases Nat.lt_or_gt_of_ne h with hlt | hgt
  · rw [List.getElem?_append_left hlt, List.getElem?_append_left hlt]
  · obtain ⟨k, hk⟩ : ∃ k, i - before.length = k + 1 := ⟨i - before.length - 1, by omega⟩
    rw [List.getElem?_append_right (by omega), List.getElem?_append_right (by omega), hk]
    rfl

namespace RecordEdit

variable {Part : String → Json → Json → Prop} {j j' : Json}

/-- An edit may be taken back. -/
theorem symm (h : RecordEdit fields canonical Part j j') :
    RecordEdit fields canonical (fun name v v' => Part name v' v) j' j := by
  cases h with
  | insert before after h v => exact .remove before after h v
  | remove before after h v => exact .insert before after h v
  | swap h => exact .swap h.symm
  | member before after h => exact .member before after h
  | place before after hname h => exact .place before after hname h

/-- An edited record is still one, and was one before. -/
theorem isRecord (h : RecordEdit fields canonical Part j j') :
    IsRecord fields canonical j ↔ IsRecord fields canonical j' := by
  cases h with
  | insert before after h v => exact (isRecord_insert h before after v).symm
  | remove before after h v => exact isRecord_insert h before after v
  | member => simp only [IsRecord, List.map_append, List.map_cons]
  | swap hswap =>
    have hperm := hswap.perm.map (·.1)
    have hmem : ∀ key, key ∈ _ ↔ key ∈ _ := fun key => hperm.mem_iff
    simp only [IsRecord, hmem]
    exact and_congr_right fun _ => hperm.pairwise_iff fun hne hsame => hne hsame.symm
  | place => simp only [IsRecord, List.length_append, List.length_cons]

/-- A field is given with the value from before, or with that value edited. -/
theorem gives (h : RecordEdit fields canonical Part j j') {name : String} (hname : name ∈ fields)
    {w : Json} (hw : Gives fields canonical name w j) :
    ∃ w', Gives fields canonical name w' j' ∧ (w = w' ∨ Part name w w') := by
  cases h with
  | insert before after h v =>
    exact ⟨w, (gives_insert h before after v hname w).mpr hw, .inl rfl⟩
  | remove before after h v =>
    exact ⟨w, (gives_insert h before after v hname w).mp hw, .inl rfl⟩
  | swap hswap =>
    obtain ⟨key, hmem, hkey⟩ := hw
    exact ⟨w, ⟨key, hswap.perm.mem_iff.mp hmem, hkey⟩, .inl rfl⟩
  | @member before after field v v' hpart =>
    obtain ⟨key, hmem, rfl⟩ := hw
    rcases List.mem_append.mp hmem with hb | ha
    · exact ⟨w, ⟨key, List.mem_append_left _ hb, rfl⟩, .inl rfl⟩
    · rcases List.mem_cons.mp ha with heq | ha
      · cases heq
        exact ⟨v', ⟨field, by simp, rfl⟩, .inr hpart⟩
      · exact ⟨w, ⟨key, List.mem_append_right _ (List.mem_cons_of_mem _ ha), rfl⟩, .inl rfl⟩
  | @place before after field hfield v v' hpart =>
    obtain ⟨i, hi, hitem⟩ := hw
    by_cases hplace : i = before.length
    · subst hplace
      rw [hfield] at hi
      cases hi
      rw [List.getElem?_append_right (Nat.le_refl _), Nat.sub_self] at hitem
      cases hitem
      exact ⟨v', ⟨before.length, hfield, by simp⟩, .inr hpart⟩
    · exact ⟨w, ⟨i, hi, (getElem?_replaced hplace v' v after).trans hitem⟩, .inl rfl⟩

end RecordEdit

def Members.Agree (fields : List String) (Part : String → Json → Json → Prop) (m m' : Members) :
    Prop :=
  ∀ name ∈ fields, Option.Rel (fun v v' => v = v' ∨ Part name v v') (m.lookup name) (m'.lookup name)

section Reading
variable {Part : String → Json → Json → Prop} {j j' : Json} {m m' : Members} {name : String}
  {f : Json → Option α}

theorem RecordEdit.agree (h : RecordEdit fields canonical Part j j') (hfields : fields.Nodup)
    (hm : members? fields canonical j = some m) (hm' : members? fields canonical j' = some m') :
    Members.Agree fields Part m m' := by
  intro name hname
  have hlookup := lookup_members? hm hfields hname
  have hlookup' := lookup_members? hm' hfields hname
  cases hv : m.lookup name with
  | some v =>
    obtain ⟨v', hgives, hpart⟩ := h.gives hname ((hlookup v).mp hv)
    rw [(hlookup' v').mpr hgives]
    exact .some hpart
  | none =>
    cases hv' : m'.lookup name with
    | none => exact .none
    | some v' =>
      obtain ⟨v, hgives, -⟩ := h.symm.gives hname ((hlookup' v').mp hv')
      rw [(hlookup v).mpr hgives] at hv
      cases hv

/-- The fields of a record are read alike before and after edits, if all that is made of them is
made alike. -/
theorem RecordEdit.read_eq {g : Members → Option β} (h : RecordEdit fields canonical Part j j')
    (hfields : fields.Nodup) (hg : ∀ m m', Members.Agree fields Part m m' → g m = g m') :
    (members? fields canonical j).bind g = (members? fields canonical j').bind g := by
  have hsome : (members? fields canonical j).isSome = (members? fields canonical j').isSome := by
    rw [Bool.eq_iff_iff, members?_isSome_iff, members?_isSome_iff, h.isRecord]
  cases hm : members? fields canonical j with
  | none =>
    have hm' : members? fields canonical j' = none := by
      rw [← Option.not_isSome_iff_eq_none, ← hsome, hm]
      exact Bool.false_ne_true
    rw [hm']
  | some m =>
    rw [hm] at hsome
    obtain ⟨m', hm'⟩ := Option.isSome_iff_exists.mp hsome.symm
    rw [hm']
    exact hg m m' (h.agree hfields hm hm')

/-- What is made of a field alike before and after an edit is the same. -/
theorem Members.Agree.elim_eq (h : Agree fields Part m m') (hname : name ∈ fields) {k : Json → β}
    (hk : ∀ v v', Part name v v' → k v = k v') (absent : β) :
    (m.lookup name).elim absent k = (m'.lookup name).elim absent k := by
  have hrel := h name hname
  generalize m.lookup name = o at hrel
  generalize m'.lookup name = o' at hrel
  cases hrel with
  | none => rfl
  | some hv =>
    rcases hv with rfl | hv
    · rfl
    · exact hk _ _ hv

theorem Members.Agree.optional (h : Agree fields Part m m') (name : String) (hname : name ∈ fields)
    (hf : ∀ v v', Part name v v' → f v = f v') {absent : α} :
    m.optional name f absent = m'.optional name f absent := by
  rw [optional_eq_elim, optional_eq_elim]
  exact h.elim_eq hname hf (some absent)

theorem Members.Agree.required (h : Agree fields Part m m') (name : String) (hname : name ∈ fields)
    (hf : ∀ v v', Part name v v' → f v = f v') : m.required name f = m'.required name f := by
  rw [required_eq_elim, required_eq_elim]
  exact h.elim_eq hname hf none

theorem Members.map_optional (m : Members) (name : String) (f : Json → Option α) (absent : α)
    (k : α → β) :
    (m.optional name f absent).map k = m.optional name (fun v => (f v).map k) (k absent) := by
  unfold Members.optional
  cases m.lookup name <;> rfl

theorem Members.map_required (m : Members) (name : String) (f : Json → Option α) (k : α → β) :
    (m.required name f).map k = m.required name fun v => (f v).map k := by
  unfold Members.required
  cases m.lookup name <;> rfl

end Reading

/-! ## Lists and tables -/

section Containers
variable {Part : Json → Json → Prop} {j j' : Json} {f : Json → Option α}

theorem ListEdit.list? (h : ListEdit Part j j') (hf : ∀ v v', Part v v' → f v = f v') :
    Json.list? f j = Json.list? f j' := by
  obtain ⟨before, after, hpart⟩ := h
  simp only [Json.list?, List.mapM_append, List.mapM_cons, hf _ _ hpart]

theorem binding?_eq_some {m : Option String × Json} {e : String × α}
    (h : binding? f m = some e) : m.1 = some e.1 := by
  obtain ⟨key, v⟩ := m
  cases key with
  | none => cases h
  | some key =>
    obtain ⟨a, -, rfl⟩ := Option.map_eq_some_iff.mp h
    rfl

theorem Swapped.table? {ms ms' : List (Option String × Json)} (h : Swapped ms ms') :
    Json.table? f (.object ms) = Json.table? f (.object ms') := by
  obtain ⟨before, after, hne⟩ := h
  rename_i m m'
  simp only [Json.table?, List.mapM_append, List.mapM_cons]
  cases hb : before.mapM (binding? f) with
  | none => rfl
  | some l =>
    cases ha : after.mapM (binding? f) with
    | none => cases binding? f m <;> cases binding? f m' <;> rfl
    | some l' =>
      cases hm : binding? f m with
      | none => cases binding? f m' <;> rfl
      | some e =>
        cases hm' : binding? f m' with
        | none => rfl
        | some e' =>
          have hkeys : e.1 ≠ e'.1 := by
            intro heq
            rw [binding?_eq_some hm, binding?_eq_some hm', heq] at hne
            exact hne rfl
          exact congrArg some (Table.ofList_swap l l' hkeys)

theorem table?_map (keep : α → β) (j : Json) :
    (Json.table? f j).map (Table.mapValues keep) = Json.table? (fun v => (f v).map keep) j := by
  have hentries (ms : List (Option String × Json)) :
      (ms.mapM (binding? f)).map (List.map fun e => (e.1, keep e.2)) =
        ms.mapM (binding? fun v => (f v).map keep) := by
    induction ms with
    | nil => rfl
    | cons m ms ih =>
      obtain ⟨key, v⟩ := m
      rw [List.mapM_cons, List.mapM_cons, ← ih]
      cases key with
      | none => rfl
      | some key =>
        simp only [binding?]
        cases f v with
        | none => rfl
        | some a => cases ms.mapM (binding? f) <;> rfl
  cases j with
  | object ms =>
    rw [Json.table?, Json.table?, ← hentries]
    cases ms.mapM (binding? f) with
    | none => rfl
    | some l => exact congrArg some (Table.mapValues_ofList keep l)
  | _ => rfl

theorem TableEdit.table? (h : TableEdit Part j j') (hf : ∀ v v', Part v v' → f v = f v') :
    Json.table? f j = Json.table? f j' := by
  cases h with
  | swap h => exact h.table?
  | @entry before after key v v' hpart =>
    have hbinding : binding? f (key, v) = binding? f (key, v') := by
      cases key with
      | none => rfl
      | some key => simp only [binding?, hf v v' hpart]
    simp only [Json.table?, List.mapM_append, List.mapM_cons, hbinding]

end Containers

/-! ## Values without a meaning -/

mutual

/-- A value as a map keeps it: the members of objects in the order of their names, and of members
with one name the last. -/
def kept : Json → Json
  | .array vs => .array (keptItems vs)
  | .object ms => .object ((Table.ofList (keptMembers ms)).entries.map fun e => (some e.1, e.2))
  | j => j

def keptItems : List Json → List Json
  | [] => []
  | v :: vs => kept v :: keptItems vs

/-- Members with a name, each as it is kept. -/
def keptMembers : List (Option String × Json) → List (String × Json)
  | [] => []
  | (none, _) :: ms => keptMembers ms
  | (some key, v) :: ms => (key, kept v) :: keptMembers ms

end

/-- Neighbours with different names have changed their places in some object of a value. -/
inductive Rearranged : Json → Json → Prop
  | swap {ms ms' : List (Option String × Json)} (h : Swapped ms ms') :
      Rearranged (.object ms) (.object ms')
  | member (before after : List (Option String × Json)) {key : Option String} {v v' : Json}
      (h : Rearranged v v') :
      Rearranged (.object (before ++ (key, v) :: after)) (.object (before ++ (key, v') :: after))
  | item (before after : List Json) {v v' : Json} (h : Rearranged v v') :
      Rearranged (.array (before ++ v :: after)) (.array (before ++ v' :: after))

theorem keptItems_append (vs vs' : List Json) :
    keptItems (vs ++ vs') = keptItems vs ++ keptItems vs' := by
  induction vs with
  | nil => rfl
  | cons v vs ih => simp only [List.cons_append, keptItems, ih]

theorem keptMembers_append (ms ms' : List (Option String × Json)) :
    keptMembers (ms ++ ms') = keptMembers ms ++ keptMembers ms' := by
  induction ms with
  | nil => rfl
  | cons m ms ih =>
    obtain ⟨key, v⟩ := m
    cases key with
    | none => simp only [List.cons_append, keptMembers, ih]
    | some key => simp only [List.cons_append, keptMembers, ih]

namespace Rearranged

variable {v v' : Json}

theorem kept (h : Rearranged v v') : v.kept = v'.kept := by
  induction h with
  | swap h =>
    obtain ⟨before, after, hne⟩ := h
    rename_i m m'
    obtain ⟨key, w⟩ := m
    obtain ⟨key', w'⟩ := m'
    simp only [Json.kept, keptMembers_append]
    cases key with
    | none => cases key' <;> rfl
    | some key =>
      cases key' with
      | none => rfl
      | some key' =>
        have hkeys : key ≠ key' := fun heq => hne (congrArg some heq)
        simp only [keptMembers]
        rw [Table.ofList_swap (keptMembers before) (keptMembers after) hkeys]
  | @member before after key w w' _ ih =>
    simp only [Json.kept, keptMembers_append]
    cases key with
    | none => rfl
    | some key => simp only [keptMembers, ih]
  | item before after _ ih => simp only [Json.kept, keptItems_append, keptItems, ih]

theorem isFree (h : Rearranged v v') (depth : Nat) : isFree depth v = isFree depth v' := by
  induction h generalizing depth with
  | swap h =>
    obtain ⟨before, after, _⟩ := h
    cases depth with
    | zero => rfl
    | succ depth =>
      simp only [Json.isFree, List.all_append, List.all_cons]
      ac_rfl
  | member before after _ ih =>
    cases depth with
    | zero => rfl
    | succ depth => simp only [Json.isFree, List.all_append, List.all_cons, ih depth]
  | item before after _ ih =>
    cases depth with
    | zero => rfl
    | succ depth => simp only [Json.isFree, List.all_append, List.all_cons, ih depth]

/-- A value that is kept without a meaning is kept alike in every order of members. -/
theorem free? (h : Rearranged v v') (depth : Nat) :
    (Json.free? depth v).map Json.kept = (Json.free? depth v').map Json.kept := by
  unfold Json.free?
  rw [h.isFree depth]
  split
  · exact congrArg some h.kept
  · rfl

end Rearranged

end CertRuns.Json
