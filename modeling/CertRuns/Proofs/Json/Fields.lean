import CertRuns.Json.Decode
import Mathlib.Data.List.Forall2

/-!
# What a record gives

The decoders of records go through the members of an object and collect its fields. Here it is said
of the value itself whether it is a record, which fields it gives, and with which values.

* `IsRecord`, `Gives` : records and what they give under a name;
* `lookup_members?`, `members?_isSome_iff` : the members that are collected are those given;
* `Field` : the value of a field, or the one for where it is missing; `optional_eq_some_iff`,
  `two_optional_iff`;
* `IsText`, `Items` : texts and lists; `text?_eq_some_iff`, `list?_eq_some_iff`.
-/

namespace CertRuns.Json

variable {fields : List String} {canonical : String → String} {name : String} {α β : Type}

/-! ## Records -/

def SameField (fields : List String) (canonical : String → String)
    (key key' : Option String) : Prop :=
  ∃ name ∈ fields, key.map canonical = some name ∧ key'.map canonical = some name

/-- The value stands for a record: an object whose members all have names and which gives no field
twice, or an array with at most as many items as there are fields. -/
def IsRecord (fields : List String) (canonical : String → String) : Json → Prop
  | .object ms => (∀ key ∈ ms.map (·.1), key.isSome = true) ∧
      (ms.map (·.1)).Pairwise fun key key' => ¬ SameField fields canonical key key'
  | .array vs => vs.length ≤ fields.length
  | _ => False

/-- The value gives a field: by a member that has its name or another name of it, or by the item in
its place. -/
def Gives (fields : List String) (canonical : String → String) (name : String) (v : Json) :
    Json → Prop
  | .object ms => ∃ key, (some key, v) ∈ ms ∧ canonical key = name
  | .array vs => ∃ i : Nat, fields[i]? = some name ∧ vs[i]? = some v
  | _ => False

theorem lookup_cons_eq_some {k : String} {v w : Json} {ms : Members} :
    ((k, w) :: ms).lookup name = some v ↔
      name = k ∧ w = v ∨ name ≠ k ∧ ms.lookup name = some v := by
  rw [List.lookup_cons]
  by_cases hk : name = k
  · simp [hk]
  · have hbeq : (name == k) = false := beq_false_of_ne hk
    simp [hk, hbeq]

/-- The fields that are collected are those that some member gives. -/
theorem lookup_fieldsOf? {ms : List (Option String × Json)} {given : Members}
    (h : fieldsOf? fields canonical ms = some given) (hname : name ∈ fields) (v : Json) :
    given.lookup name = some v ↔ ∃ key, (some key, v) ∈ ms ∧ canonical key = name := by
  induction ms generalizing given v with
  | nil =>
    cases h
    simp
  | cons m ms ih =>
    obtain ⟨key, w⟩ := m
    cases key with
    | none => cases h
    | some key =>
      simp only [fieldsOf?, Option.bind_eq_bind, Option.bind_eq_some_iff] at h
      obtain ⟨rest, hrest, h⟩ := h
      have hmembers : (∃ k, (some k, v) ∈ (some key, w) :: ms ∧ canonical k = name) ↔
          name = canonical key ∧ w = v ∨ rest.lookup name = some v := by
        rw [ih hrest v]
        simp only [List.mem_cons, Prod.mk.injEq, Option.some.injEq]
        constructor
        · rintro ⟨k, ⟨rfl, rfl⟩ | hk, rfl⟩
          · exact .inl ⟨rfl, rfl⟩
          · exact .inr ⟨k, hk, rfl⟩
        · rintro (⟨rfl, rfl⟩ | ⟨k, hk, rfl⟩)
          · exact ⟨key, .inl ⟨rfl, rfl⟩, rfl⟩
          · exact ⟨k, .inr hk, rfl⟩
      rw [hmembers]
      split at h
      · split at h
        · cases h
        · rename_i hfresh
          cases h
          rw [lookup_cons_eq_some]
          refine or_congr_right (and_iff_right_of_imp fun hv hk => hfresh ?_)
          rw [← hk, hv]
          rfl
      · rename_i hunknown
        cases h
        refine (or_iff_right ?_).symm
        rintro ⟨rfl, -⟩
        exact hunknown (List.contains_iff_mem.mpr hname)

theorem fieldsOf?_isSome_iff {ms : List (Option String × Json)} :
    (fieldsOf? fields canonical ms).isSome = true ↔ IsRecord fields canonical (.object ms) := by
  induction ms with
  | nil => simp [fieldsOf?, IsRecord]
  | cons m ms ih =>
    obtain ⟨key, w⟩ := m
    cases key with
    | none => simp [fieldsOf?, IsRecord]
    | some key =>
      simp only [IsRecord, List.map_cons, List.forall_mem_cons, Option.isSome_some, true_and,
        List.pairwise_cons] at ih ⊢
      rw [and_left_comm, ← ih, fieldsOf?]
      cases hrest : fieldsOf? fields canonical ms with
      | none => simp
      | some rest =>
        have hgiven (hk : canonical key ∈ fields) : (rest.lookup (canonical key)).isSome = true ↔
            ∃ k ∈ ms.map (·.1), SameField fields canonical (some key) k := by
          rw [Option.isSome_iff_exists]
          constructor
          · rintro ⟨v, hv⟩
            obtain ⟨k, hmem, hsame⟩ := (lookup_fieldsOf? hrest hk v).mp hv
            exact ⟨some k, List.mem_map_of_mem hmem, _, hk, rfl, congrArg some hsame⟩
          · rintro ⟨k, hmem, n, hn, hcanonical, hsame⟩
            obtain rfl := Option.some.inj hcanonical
            obtain ⟨k, rfl, heq⟩ := Option.map_eq_some_iff.mp hsame
            obtain ⟨⟨_, v⟩, hm, rfl⟩ := List.mem_map.mp hmem
            exact ⟨v, (lookup_fieldsOf? hrest hk v).mpr ⟨k, hm, heq⟩⟩
        simp only [Option.bind_eq_bind, Option.bind_some, Option.isSome_some, and_true]
        by_cases hk : canonical key ∈ fields
        · rw [if_pos (List.contains_iff_mem.mpr hk)]
          split
          · rename_i hsome
            obtain ⟨m, hm, hsame⟩ := (hgiven hk).mp hsome
            exact iff_of_false nofun fun hnone => hnone m hm hsame
          · rename_i hnone
            exact iff_of_true rfl fun m hm hsame => hnone ((hgiven hk).mpr ⟨m, hm, hsame⟩)
        · rw [if_neg fun hc => hk (List.contains_iff_mem.mp hc)]
          refine iff_of_true rfl fun m _ hsame => ?_
          obtain ⟨n, hn, hcanonical, -⟩ := hsame
          obtain rfl := Option.some.inj hcanonical
          exact hk hn

theorem members?_isSome_iff {j : Json} :
    (members? fields canonical j).isSome = true ↔ IsRecord fields canonical j := by
  cases j with
  | object ms => exact fieldsOf?_isSome_iff
  | array vs =>
    unfold members? IsRecord
    split <;> simp_all
  | _ => exact iff_of_false nofun nofun

theorem lookup_zip (hfields : fields.Nodup) (vs : List Json) (v : Json) :
    (fields.zip vs).lookup name = some v ↔ ∃ i : Nat, fields[i]? = some name ∧ vs[i]? = some v := by
  induction fields generalizing vs with
  | nil => simp
  | cons field fields ih =>
    obtain ⟨hfresh, hfields⟩ := List.nodup_cons.mp hfields
    cases vs with
    | nil => simp
    | cons w vs =>
      rw [List.zip_cons_cons, lookup_cons_eq_some, ih hfields]
      constructor
      · rintro (⟨rfl, rfl⟩ | ⟨-, i, hfield, hitem⟩)
        · exact ⟨0, rfl, rfl⟩
        · exact ⟨i + 1, hfield, hitem⟩
      · rintro ⟨i, hfield, hitem⟩
        cases i with
        | zero => exact .inl ⟨(Option.some.inj hfield).symm, Option.some.inj hitem⟩
        | succ i =>
          refine .inr ⟨?_, i, hfield, hitem⟩
          rintro rfl
          exact hfresh (List.mem_of_getElem? hfield)

theorem lookup_members? {j : Json} {given : Members} (h : members? fields canonical j = some given)
    (hfields : fields.Nodup) (hname : name ∈ fields) (v : Json) :
    given.lookup name = some v ↔ Gives fields canonical name v j := by
  cases j with
  | object ms => exact lookup_fieldsOf? h hname v
  | array vs =>
    simp only [members?] at h
    split at h
    · cases h
      exact lookup_zip hfields vs v
    · cases h
  | _ => cases h

/-! ## Fields -/

/-- The field has what is read from the value that is given for it; or there is none, and it has the
value for this case. -/
def Field (fields : List String) (canonical : String → String) (name : String)
    (Read : Json → α → Prop) (absent : α) (j : Json) (a : α) : Prop :=
  (∃ v, Gives fields canonical name v j ∧ Read v a) ∨
    (∀ v, ¬ Gives fields canonical name v j) ∧ a = absent

theorem optional_eq_some_iff {j : Json} {given : Members} {f : Json → Option α}
    {Read : Json → α → Prop} (h : members? fields canonical j = some given)
    (hfields : fields.Nodup) (hname : name ∈ fields) (hread : ∀ v a, f v = some a ↔ Read v a)
    (absent a : α) : given.optional name f absent = some a ↔
      Field fields canonical name Read absent j a := by
  have hlookup := lookup_members? h hfields hname
  unfold Members.optional Field
  cases hgiven : given.lookup name with
  | none =>
    have hnone : ∀ v, ¬ Gives fields canonical name v j := by
      intro v hv
      rw [← hlookup, hgiven] at hv
      cases hv
    constructor
    · intro ha
      exact .inr ⟨hnone, (Option.some.inj ha).symm⟩
    · rintro (⟨v, hv, -⟩ | ⟨-, rfl⟩)
      · exact absurd hv (hnone v)
      · rfl
  | some w =>
    have hw : Gives fields canonical name w j := (hlookup w).mp hgiven
    constructor
    · exact fun ha => .inl ⟨w, hw, (hread w a).mp ha⟩
    · rintro (⟨v, hv, ha⟩ | ⟨hnone, -⟩)
      · rw [← hlookup, hgiven] at hv
        cases hv
        exact (hread w a).mpr ha
      · exact absurd hw (hnone w)

theorem two_optional_iff (canonical : String → String) {j : Json} {first second : String}
    (hne : first ≠ second) {f : Json → Option α} {g : Json → Option β}
    {Read : Json → α → Prop} {Read' : Json → β → Prop}
    (hread : ∀ v a, f v = some a ↔ Read v a) (hread' : ∀ v b, g v = some b ↔ Read' v b)
    (absent a : α) (absent' b : β) :
    (∃ given, members? [first, second] canonical j = some given ∧
      given.optional first f absent = some a ∧ given.optional second g absent' = some b) ↔
    IsRecord [first, second] canonical j ∧
      Field [first, second] canonical first Read absent j a ∧
      Field [first, second] canonical second Read' absent' j b := by
  have hfields : [first, second].Nodup := by simp [hne]
  have hsecond : second ∈ [first, second] := List.mem_cons_of_mem _ List.mem_cons_self
  rw [← members?_isSome_iff, Option.isSome_iff_exists, ← exists_and_right]
  refine exists_congr fun given => and_congr_right fun hgiven => and_congr ?_ ?_
  · exact optional_eq_some_iff hgiven hfields List.mem_cons_self hread absent a
  · exact optional_eq_some_iff hgiven hfields hsecond hread' absent' b

/-! ## Texts and lists -/

def IsText (j : Json) (s : String) : Prop := j = .string (some s)

theorem text?_eq_some_iff (j : Json) (s : String) : text? j = some s ↔ IsText j s := by
  unfold text? IsText
  split <;> simp_all

def Items (Read : Json → α → Prop) (j : Json) (l : List α) : Prop :=
  ∃ vs, j = .array vs ∧ List.Forall₂ Read vs l

theorem mapM_eq_some_iff {f : β → Option α} {Read : β → α → Prop}
    (hread : ∀ v a, f v = some a ↔ Read v a) {vs : List β} {l : List α} :
    vs.mapM f = some l ↔ List.Forall₂ Read vs l := by
  induction vs generalizing l with
  | nil => simp [eq_comm]
  | cons v vs ih =>
    simp only [List.mapM_cons, Option.bind_eq_bind, Option.bind_eq_some_iff, Option.pure_def,
      Option.some.injEq, List.forall₂_cons_left_iff]
    constructor
    · rintro ⟨a, ha, as, has, rfl⟩
      exact ⟨a, as, (hread v a).mp ha, ih.mp has, rfl⟩
    · rintro ⟨a, as, ha, has, rfl⟩
      exact ⟨a, (hread v a).mpr ha, as, ih.mpr has, rfl⟩

theorem list?_eq_some_iff {f : Json → Option α} {Read : Json → α → Prop}
    (hread : ∀ v a, f v = some a ↔ Read v a) (j : Json) (l : List α) :
    list? f j = some l ↔ Items Read j l := by
  cases j with
  | array vs =>
    rw [list?, mapM_eq_some_iff hread]
    constructor
    · exact fun h => ⟨vs, rfl, h⟩
    · rintro ⟨vs', hvs, h⟩
      cases hvs
      exact h
  | _ => exact iff_of_false nofun fun ⟨vs, hvs, _⟩ => nomatch hvs

end CertRuns.Json
