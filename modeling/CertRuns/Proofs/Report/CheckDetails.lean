import CertRuns.Proofs.Json.Fields
import CertRuns.Proofs.Json.Grammar
import CertRuns.Proofs.Table
import CertRuns.Report.CheckDetails

/-!
# What the check details of a case list

The text of a case lists its objects, or it does not. If it does, and every object has as many field
names as values, then the objects are told one by one, in the order of the text; the first object
that does not is reported, and nothing else is told.

* `ObjectListing.Read`, `CheckDetails.Read` : what a value says; `Listed s details` : what a text
  says; `listed_iff` : it is what is decoded;
* `ObjectListing.Balanced`, `ObjectListing.Pairs` : an object with its fields paired;
* `flattenAll_eq_ok_iff`, `flattenAll_eq_error_iff` : all objects, or the first that fails;
* `decodeCheckDetails_exact` : what is told about every text.
-/

namespace CertRuns

open Json (Document Field IsRecord IsText Items)

/-! ## What a value says -/

/-- The names of the fields of a listed object. -/
def ObjectListing.fields : List String := ["ObjectFieldsKeys", "ObjectFieldsValues"]

def CheckDetails.fields : List String := ["CompliantObjectsOut", "NonCompliantObjectsOut"]

/-- The value is a record of this object; a list that is not given is empty. -/
structure ObjectListing.Read (j : Json) (o : ObjectListing) : Prop where
  isRecord : IsRecord fields id j
  keys : Field fields id "ObjectFieldsKeys" (Items IsText) [] j o.keys
  values : Field fields id "ObjectFieldsValues" (Items IsText) [] j o.values

/-- The value is a record of these lists of objects; a list that is not given is empty. -/
structure CheckDetails.Read (j : Json) (details : CheckDetails) : Prop where
  isRecord : IsRecord fields id j
  compliant : Field fields id "CompliantObjectsOut" (Items ObjectListing.Read) [] j
    details.compliant
  nonCompliant : Field fields id "NonCompliantObjectsOut" (Items ObjectListing.Read) [] j
    details.nonCompliant

theorem ObjectListing.ofJson?_eq_some_iff (j : Json) (o : ObjectListing) :
    ofJson? j = some o ↔ Read j o := by
  have hitems := Json.list?_eq_some_iff Json.text?_eq_some_iff
  have hfields : "ObjectFieldsKeys" ≠ "ObjectFieldsValues" := by decide
  have hrecord := Json.two_optional_iff id (j := j) hfields hitems hitems [] o.keys [] o.values
  constructor
  · intro h
    simp only [ofJson?, Option.bind_eq_bind, Option.bind_eq_some_iff, Option.pure_def,
      Option.some.injEq] at h
    obtain ⟨m, hm, _, h₁, _, h₂, rfl⟩ := h
    obtain ⟨hisRecord, h₁, h₂⟩ := hrecord.mp ⟨m, hm, h₁, h₂⟩
    exact ⟨hisRecord, h₁, h₂⟩
  · rintro ⟨hisRecord, h₁, h₂⟩
    obtain ⟨m, hm, h₁, h₂⟩ := hrecord.mpr ⟨hisRecord, h₁, h₂⟩
    simp only [ofJson?, hm, h₁, h₂, Option.bind_eq_bind, Option.bind_some, Option.pure_def]

theorem CheckDetails.ofJson?_eq_some_iff (j : Json) (details : CheckDetails) :
    ofJson? j = some details ↔ Read j details := by
  have hitems := Json.list?_eq_some_iff ObjectListing.ofJson?_eq_some_iff
  have hfields : "CompliantObjectsOut" ≠ "NonCompliantObjectsOut" := by decide
  have hrecord := Json.two_optional_iff id (j := j) hfields hitems hitems [] details.compliant [] details.nonCompliant
  constructor
  · intro h
    simp only [ofJson?, Option.bind_eq_bind, Option.bind_eq_some_iff, Option.pure_def,
      Option.some.injEq] at h
    obtain ⟨m, hm, _, h₁, _, h₂, rfl⟩ := h
    obtain ⟨hisRecord, h₁, h₂⟩ := hrecord.mp ⟨m, hm, h₁, h₂⟩
    exact ⟨hisRecord, h₁, h₂⟩
  · rintro ⟨hisRecord, h₁, h₂⟩
    obtain ⟨m, hm, h₁, h₂⟩ := hrecord.mpr ⟨hisRecord, h₁, h₂⟩
    simp only [ofJson?, hm, h₁, h₂, Option.bind_eq_bind, Option.bind_some, Option.pure_def]

/-- The text is a document of a record of these lists of objects. -/
def Listed (s : String) (details : CheckDetails) : Prop :=
  ∃ j, Document (Text.ofText s) j ∧ details.Read j

theorem listed_iff (s : String) (details : CheckDetails) :
    (Json.parseText s).bind CheckDetails.ofJson? = some details ↔ Listed s details := by
  simp only [Option.bind_eq_some_iff, Json.parseText, Json.parse_eq_some_iff,
    CheckDetails.ofJson?_eq_some_iff]
  rfl

/-! ## Objects -/

namespace ObjectListing

/-- The object has as many names of fields as values. -/
def Balanced (o : ObjectListing) : Prop := o.keys.length = o.values.length

/-- The fields of the object are paired: a name is bound to the value at its last place. -/
def Pairs (o : ObjectListing) (t : TargetObject) : Prop :=
  o.Balanced ∧ ∀ key value, t.get? key = some value ↔
    ∃ i : Nat, o.keys[i]? = some key ∧ o.values[i]? = some value ∧
      ∀ later : Nat, i < later → o.keys[later]? ≠ some key

end ObjectListing

/-- The last place of a name among the fields. -/
theorem last_pair_iff {keys values : List String} (h : keys.length = values.length)
    (key value : String) :
    (∃ before after, keys.zip values = before ++ (key, value) :: after ∧ ∀ e ∈ after, e.1 ≠ key) ↔
      ∃ i : Nat, keys[i]? = some key ∧ values[i]? = some value ∧
        ∀ later : Nat, i < later → keys[later]? ≠ some key := by
  have hkeys : (keys.zip values).map (·.1) = keys := List.map_fst_zip (by omega)
  have hvalues : (keys.zip values).map (·.2) = values := List.map_snd_zip (by omega)
  generalize keys.zip values = pairs at hkeys hvalues
  subst hkeys hvalues
  simp only [List.getElem?_map, Option.map_eq_some_iff]
  constructor
  · rintro ⟨before, after, rfl, hlast⟩
    refine ⟨before.length, ⟨(key, value), by simp, rfl⟩, ⟨(key, value), by simp, rfl⟩, ?_⟩
    intro later hlater hkey
    obtain ⟨e, he, rfl⟩ := Option.map_eq_some_iff.mp hkey
    have hle : before.length ≤ later := by omega
    obtain ⟨k, hk⟩ : ∃ k, later - before.length = k + 1 := ⟨later - before.length - 1, by omega⟩
    rw [List.getElem?_append_right hle, hk, List.getElem?_cons_succ] at he
    exact hlast e (List.mem_of_getElem? he) rfl
  · rintro ⟨i, ⟨e, he, rfl⟩, ⟨e', he', rfl⟩, hlast⟩
    rw [he] at he'
    obtain rfl := Option.some.inj he'
    obtain ⟨hi, rfl⟩ := List.getElem?_eq_some_iff.mp he
    refine ⟨pairs.take i, pairs.drop (i + 1), ?_, fun e hmem heq => ?_⟩
    · rw [List.getElem_cons_drop, List.take_append_drop]
    · obtain ⟨k, hk⟩ := List.mem_iff_getElem?.mp hmem
      rw [List.getElem?_drop] at hk
      exact hlast (i + 1 + k) (by omega) (Option.map_eq_some_iff.mpr ⟨e, hk, heq⟩)

namespace ObjectListing

variable {o : ObjectListing} {t : TargetObject}

theorem pairs_ofList (h : o.Balanced) : o.Pairs (Table.ofList (o.keys.zip o.values)) :=
  ⟨h, fun key value => (Table.get?_ofList _ key value).trans (last_pair_iff h key value)⟩

theorem Pairs.unique {t' : TargetObject} (h : o.Pairs t) (h' : o.Pairs t') : t = t' := by
  refine Table.ext_get? fun key => Option.ext fun value => ?_
  rw [h.2, h'.2]

theorem flatten_eq_ok_iff : o.flatten = .ok t ↔ o.Pairs t := by
  unfold flatten
  split
  · rename_i hbalanced
    constructor
    · intro h
      cases h
      exact pairs_ofList hbalanced
    · exact fun h => congrArg Except.ok ((pairs_ofList hbalanced).unique h)
  · rename_i hbalanced
    exact iff_of_false nofun fun h => hbalanced h.1

theorem flatten_eq_error_iff {e : CheckDetailsError} : o.flatten = .error e ↔
    ¬ o.Balanced ∧ e = .countMismatch o.keys.length o.values.length := by
  unfold flatten
  split
  · rename_i hbalanced
    exact iff_of_false nofun fun h => h.1 hbalanced
  · rename_i hbalanced
    constructor
    · intro h
      cases h
      exact ⟨hbalanced, rfl⟩
    · rintro ⟨-, rfl⟩
      rfl

end ObjectListing

/-! ## All objects -/

theorem flattenAll_cons_ok {o : ObjectListing} {t : TargetObject} (h : o.flatten = .ok t)
    (os : List ObjectListing) : flattenAll (o :: os) = (flattenAll os).map (t :: ·) := by
  rw [flattenAll, h]
  cases flattenAll os <;> rfl

theorem flattenAll_cons_error {o : ObjectListing} {e : CheckDetailsError}
    (h : o.flatten = .error e) (os : List ObjectListing) : flattenAll (o :: os) = .error e := by
  rw [flattenAll, h]
  rfl

theorem flattenAll_eq_ok_iff {os : List ObjectListing} {ts : List TargetObject} :
    flattenAll os = .ok ts ↔ List.Forall₂ ObjectListing.Pairs os ts := by
  induction os generalizing ts with
  | nil => simp [flattenAll, Except.ok.injEq, eq_comm]
  | cons o os ih =>
    rw [List.forall₂_cons_left_iff]
    cases ho : o.flatten with
    | ok t =>
      rw [flattenAll_cons_ok ho]
      constructor
      · intro h
        cases hrest : flattenAll os with
        | ok us =>
          rw [hrest] at h
          cases h
          exact ⟨t, us, ObjectListing.flatten_eq_ok_iff.mp ho, ih.mp hrest, rfl⟩
        | error e =>
          rw [hrest] at h
          cases h
      · rintro ⟨u, us, hu, hus, rfl⟩
        obtain rfl := (ObjectListing.flatten_eq_ok_iff.mp ho).unique hu
        rw [ih.mpr hus]
        rfl
    | error e =>
      rw [flattenAll_cons_error ho]
      refine iff_of_false nofun ?_
      rintro ⟨u, us, hu, -⟩
      exact (ObjectListing.flatten_eq_error_iff.mp ho).1 hu.1

theorem flattenAll_eq_error_iff {os : List ObjectListing} {e : CheckDetailsError} :
    flattenAll os = .error e ↔ ∃ before o after, os = before ++ o :: after ∧
      (∀ p ∈ before, p.Balanced) ∧ ¬ o.Balanced ∧
      e = .countMismatch o.keys.length o.values.length := by
  induction os with
  | nil => simp [flattenAll]
  | cons o os ih =>
    cases ho : o.flatten with
    | ok t =>
      have hbalanced := (ObjectListing.flatten_eq_ok_iff.mp ho).1
      have herror : (flattenAll os).map (t :: ·) = .error e ↔ flattenAll os = .error e := by
        cases flattenAll os with
        | ok ts => exact iff_of_false nofun nofun
        | error e' => exact ⟨fun h => by cases h; rfl, fun h => by cases h; rfl⟩
      rw [flattenAll_cons_ok ho, herror, ih]
      constructor
      · rintro ⟨before, p, after, rfl, hbefore, hp⟩
        exact ⟨o :: before, p, after, rfl, List.forall_mem_cons.mpr ⟨hbalanced, hbefore⟩, hp⟩
      · rintro ⟨before, p, after, heq, hbefore, hp, he⟩
        cases before with
        | nil =>
          cases heq
          exact absurd hbalanced hp
        | cons q before =>
          cases heq
          exact ⟨before, p, after, rfl, (List.forall_mem_cons.mp hbefore).2, hp, he⟩
    | error e' =>
      obtain ⟨hunbalanced, rfl⟩ := ObjectListing.flatten_eq_error_iff.mp ho
      rw [flattenAll_cons_error ho]
      constructor
      · intro h
        cases h
        exact ⟨[], o, os, rfl, nofun, hunbalanced, rfl⟩
      · rintro ⟨before, p, after, heq, hbefore, hp, rfl⟩
        cases before with
        | nil =>
          cases heq
          rfl
        | cons q before =>
          cases heq
          exact absurd (hbefore o List.mem_cons_self) hunbalanced

theorem balanced_of_forall₂ {os : List ObjectListing} {ts : List TargetObject}
    (h : List.Forall₂ ObjectListing.Pairs os ts) : ∀ o ∈ os, o.Balanced := by
  induction h with
  | nil => exact nofun
  | cons hp _ ih => exact List.forall_mem_cons.mpr ⟨hp.1, ih⟩

theorem exists_pairs {os : List ObjectListing} (h : ∀ o ∈ os, o.Balanced) :
    ∃ ts, List.Forall₂ ObjectListing.Pairs os ts := by
  cases hall : flattenAll os with
  | ok ts => exact ⟨ts, flattenAll_eq_ok_iff.mp hall⟩
  | error e =>
    obtain ⟨before, o, after, rfl, -, ho, -⟩ := flattenAll_eq_error_iff.mp hall
    exact absurd (h o (by simp)) ho

theorem flattenAll_append (os ps : List ObjectListing) : flattenAll (os ++ ps) =
    (flattenAll os).bind fun ts => (flattenAll ps).map (ts ++ ·) := by
  induction os with
  | nil =>
    rw [List.nil_append]
    cases flattenAll ps <;> rfl
  | cons o os ih =>
    rw [List.cons_append]
    cases ho : o.flatten with
    | error e =>
      rw [flattenAll_cons_error ho, flattenAll_cons_error ho]
      rfl
    | ok t =>
      rw [flattenAll_cons_ok ho, flattenAll_cons_ok ho, ih]
      cases flattenAll os with
      | error e => rfl
      | ok ts => cases flattenAll ps <;> rfl

/-! ## Texts -/

theorem Listed.unique {s : String} {details details' : CheckDetails} (h : Listed s details)
    (h' : Listed s details') : details = details' := by
  rw [← listed_iff] at h h'
  exact Option.some.inj (h.symm.trans h')

/-- The objects of both lists are told in their order, or the first one that fails. -/
theorem decodeCheckDetails_of_listed {s : String} {details : CheckDetails}
    (h : Listed s details) : decodeCheckDetails s =
      (flattenAll details.compliant).bind fun compliant =>
        (flattenAll details.nonCompliant).map fun nonCompliant => { compliant, nonCompliant } := by
  simp only [decodeCheckDetails, (listed_iff s details).mpr h]
  cases flattenAll details.compliant with
  | error e => rfl
  | ok ts => cases flattenAll details.nonCompliant <;> rfl

theorem decodeCheckDetails_of_not_listed {s : String} (h : ¬ ∃ details, Listed s details) :
    decodeCheckDetails s = .error .undecodable := by
  have hnone : (Json.parseText s).bind CheckDetails.ofJson? = none :=
    Option.eq_none_iff_forall_ne_some.mpr fun details hd =>
      h ⟨details, (listed_iff s details).mp hd⟩
  simp only [decodeCheckDetails, hnone]

theorem decode_eq_ok_iff {s : String} {details : CheckDetails} (h : Listed s details)
    {targets : CaseTargets} : decodeCheckDetails s = .ok targets ↔
      List.Forall₂ ObjectListing.Pairs details.compliant targets.compliant ∧
      List.Forall₂ ObjectListing.Pairs details.nonCompliant targets.nonCompliant := by
  rw [decodeCheckDetails_of_listed h, ← flattenAll_eq_ok_iff, ← flattenAll_eq_ok_iff]
  obtain ⟨compliant, nonCompliant⟩ := targets
  cases flattenAll details.compliant with
  | error e => exact iff_of_false nofun fun h => nomatch h.1
  | ok ts =>
    cases flattenAll details.nonCompliant with
    | error e => exact iff_of_false nofun fun h => nomatch h.2
    | ok us => simp [Except.bind, Except.map]

theorem decode_eq_error_iff {s : String} {details : CheckDetails} (h : Listed s details)
    {e : CheckDetailsError} : decodeCheckDetails s = .error e ↔
      flattenAll (details.compliant ++ details.nonCompliant) = .error e := by
  rw [decodeCheckDetails_of_listed h, flattenAll_append]
  cases flattenAll details.compliant with
  | error e' => exact ⟨fun h => by cases h; rfl, fun h => by cases h; rfl⟩
  | ok ts =>
    cases flattenAll details.nonCompliant with
    | error e' => exact ⟨fun h => by cases h; rfl, fun h => by cases h; rfl⟩
    | ok us => exact iff_of_false nofun nofun

/-- A text is told as its objects, all of them and in their order, or not at all. It is told iff it
lists objects that all have as many names of fields as values; the first object that has not, with
the compliant ones coming first, is reported; and a text that lists no objects is reported as
such. -/
theorem decodeCheckDetails_exact (s : String) :
    (∀ targets, decodeCheckDetails s = .ok targets ↔ ∃ details, Listed s details ∧
      List.Forall₂ ObjectListing.Pairs details.compliant targets.compliant ∧
      List.Forall₂ ObjectListing.Pairs details.nonCompliant targets.nonCompliant) ∧
    ((∃ targets, decodeCheckDetails s = .ok targets) ↔ ∃ details, Listed s details ∧
      ∀ o ∈ details.compliant ++ details.nonCompliant, o.Balanced) ∧
    (∀ keys values, decodeCheckDetails s = .error (.countMismatch keys values) ↔
      ∃ details before o after, Listed s details ∧
        details.compliant ++ details.nonCompliant = before ++ o :: after ∧
        (∀ p ∈ before, p.Balanced) ∧ ¬ o.Balanced ∧
        o.keys.length = keys ∧ o.values.length = values) ∧
    (decodeCheckDetails s = .error .undecodable ↔ ¬ ∃ details, Listed s details) := by
  by_cases hlisted : ∃ details, Listed s details
  · obtain ⟨details, hd⟩ := hlisted
    have honly {P : CheckDetails → Prop} :
        (∃ details', Listed s details' ∧ P details') ↔ P details := by
      constructor
      · rintro ⟨details', hd', hp⟩
        rwa [hd.unique hd']
      · exact fun hp => ⟨details, hd, hp⟩
    refine ⟨fun targets => ?_, ?_, fun keys values => ?_, ?_⟩
    · rw [honly]
      exact decode_eq_ok_iff hd
    · rw [honly]
      constructor
      · rintro ⟨targets, ht⟩
        obtain ⟨hc, hn⟩ := (decode_eq_ok_iff hd).mp ht
        exact List.forall_mem_append.mpr ⟨balanced_of_forall₂ hc, balanced_of_forall₂ hn⟩
      · intro hall
        obtain ⟨hc, hn⟩ := List.forall_mem_append.mp hall
        obtain ⟨compliant, hc⟩ := exists_pairs hc
        obtain ⟨nonCompliant, hn⟩ := exists_pairs hn
        exact ⟨⟨compliant, nonCompliant⟩, (decode_eq_ok_iff hd).mpr ⟨hc, hn⟩⟩
    · rw [decode_eq_error_iff hd, flattenAll_eq_error_iff]
      constructor
      · rintro ⟨before, o, after, heq, hbefore, ho, he⟩
        cases he
        exact ⟨details, before, o, after, hd, heq, hbefore, ho, rfl, rfl⟩
      · rintro ⟨details', before, o, after, hd', heq, hbefore, ho, rfl, rfl⟩
        rw [hd.unique hd']
        exact ⟨before, o, after, heq, hbefore, ho, rfl⟩
    · refine iff_of_false (fun h => ?_) fun hnone => hnone ⟨details, hd⟩
      rw [decode_eq_error_iff hd, flattenAll_eq_error_iff] at h
      obtain ⟨_, _, _, _, _, _, he⟩ := h
      cases he
  · have hnone := decodeCheckDetails_of_not_listed hlisted
    rw [hnone]
    refine ⟨fun targets => ?_, ?_, fun keys values => ?_, iff_of_true rfl hlisted⟩
    · exact iff_of_false nofun fun ⟨details, hd, _⟩ => hlisted ⟨details, hd⟩
    · exact iff_of_false nofun fun ⟨details, hd, _⟩ => hlisted ⟨details, hd⟩
    · exact iff_of_false nofun fun ⟨details, _, _, _, hd, _⟩ => hlisted ⟨details, hd⟩

/-- Of two values for one name the last one counts, and members that nobody knows are skipped. -/
example : (decodeCheckDetails ("\x7b\"CompliantObjectsOut\": [\x7b\"ObjectFieldsKeys\": " ++
      "[\"a\", \"b\", \"a\"], \"extra\": [1e999], \"ObjectFieldsValues\": " ++
      "[\"1\", \"2\", \"3\"]\x7d]\x7d")).toOption =
    some ⟨[Table.ofList [("a", "3"), ("b", "2")]], []⟩ := by
  decide +kernel

end CertRuns
