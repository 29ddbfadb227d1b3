import CertRuns.Proofs.Http.Address

/-!
# Names as segments

A name that is put behind the path of a collection becomes its last segment only if nothing in it
has a meaning of its own.

* `IsPlain`, `EndsPlainly` : the names without such parts;
* `normaliseFrom_plain`, `last_segment_iff` : the segment that a name becomes, and when it is read
  back as the name;
* `target_injective` : what a request asks for tells the segments of its path.
-/

namespace CertRuns.Url

/-! ## Plain names -/

/-- The text stands as one segment and is read back as it was. -/
structure IsPlain (s : List Char) : Prop where
  whole : ∀ c ∈ s, c ∉ ['/', '\\', '?', '#', '\t', '\n', '\r']
  named : s ≠ ['.'] ∧ s ≠ ['.', '.']
  literal : IsLiteral s

instance (s : List Char) : Decidable (IsPlain s) :=
  haveI : Decidable (∀ c ∈ s, c ∉ ['/', '\\', '?', '#', '\t', '\n', '\r']) :=
    List.decidableBAll _ s
  decidable_of_iff
    ((∀ c ∈ s, c ∉ ['/', '\\', '?', '#', '\t', '\n', '\r']) ∧ (s ≠ ['.'] ∧ s ≠ ['.', '.']) ∧
      IsLiteral s)
    ⟨fun h => ⟨h.1, h.2.1, h.2.2⟩, fun h => ⟨h.whole, h.named, h.literal⟩⟩

/-- No blank or control character stands at the end. -/
def EndsPlainly (s : List Char) : Prop := ∀ c ∈ s.getLast?, isOuter c = false

instance (s : List Char) : Decidable (EndsPlainly s) :=
  decidable_of_iff (s.getLast?.all (!isOuter ·) = true) (by
    unfold EndsPlainly
    cases s.getLast? <;> simp)

theorem IsPlain.filter_isInner {s : List Char} (h : IsPlain s) : s.filter isInner = s := by
  rw [List.filter_eq_self]
  intro c hc
  have hmarks := h.whole c hc
  simp only [List.mem_cons, not_or] at hmarks
  simp [isInner, hmarks]

theorem IsPlain.isBare {s : List Char} (h : IsPlain s) : IsBare s :=
  ⟨fun hmem => h.whole _ hmem (by decide), fun hmem => h.whole _ hmem (by decide)⟩

theorem IsPlain.segments {s : List Char} (h : IsPlain s) : segments s = [s] := by
  apply segments_of_whole
  intro c hc
  have hmarks := h.whole c hc
  simp only [List.mem_cons, not_or] at hmarks
  exact ⟨hmarks.1, hmarks.2.1⟩

/-- Dots can be written with percent signs only. -/
theorem IsLiteral.plainDots {s : List Char} (h : IsLiteral s) : plainDots s = s := by
  fun_induction Url.plainDots s with
  | case1 s _ => exact absurd (isLiteral_cons.1 h).1 (by show byte? '2' 'e' ≠ none; decide)
  | case2 s _ => exact absurd (isLiteral_cons.1 h).1 (by show byte? '2' 'E' ≠ none; decide)
  | case3 c s _ _ ih => rw [ih (isLiteral_cons.1 h).2]
  | case4 => rfl

theorem IsPlain.not_isParent {s : List Char} (h : IsPlain s) : isParent s = false := by
  unfold isParent
  rw [h.literal.plainDots, beq_eq_false_iff_ne]
  exact h.named.2

theorem IsPlain.not_isSame {s : List Char} (h : IsPlain s) : isSame s = false := by
  unfold isSame
  rw [h.literal.plainDots, beq_eq_false_iff_ne]
  exact h.named.1

theorem IsPlain.percentDecode_encodePath {s : List Char} (h : IsPlain s) :
    percentDecode (encodePath s).toList = bytes s := by
  rw [Url.percentDecode_encodePath, h.literal.percentDecode]

theorem IsPlain.encodePath_injective {s t : List Char} (hs : IsPlain s) (ht : IsPlain t)
    (h : encodePath s = encodePath t) : s = t := by
  apply bytes_injective
  rw [← hs.percentDecode_encodePath, h, ht.percentDecode_encodePath]

/-- A plain name leads to the folder of that name. -/
theorem IsPlain.enter {s : List Char} (h : IsPlain s) (before : List String) :
    enter before s = encodePath s :: before := by
  unfold Url.enter
  rw [if_neg (by simp [h.not_isParent]), if_neg (by simp [h.not_isSame])]

/-! ## Names at the end of an address -/

theorem tidy_eq_self {s : List Char} : tidy s = s ↔ s.filter isInner = s ∧ EndsPlainly s := by
  unfold tidy EndsPlainly
  rw [← List.head?_reverse]
  constructor
  · intro h
    have hdrop := (s.reverse.dropWhile_sublist isOuter).reverse
    rw [List.reverse_reverse] at hdrop
    have hlength := (List.filter_sublist (p := isInner)
      (l := (s.reverse.dropWhile isOuter).reverse)).length_le
    have hkept := hdrop.eq_of_length_le (by rwa [h] at hlength)
    rw [hkept] at h
    refine ⟨h, fun c hc => ?_⟩
    have hnot := List.head?_dropWhile_not isOuter s.reverse
    rw [List.reverse_eq_iff.1 hkept, hc] at hnot
    exact hnot
  · rintro ⟨hinner, hlast⟩
    have hkept : s.reverse.dropWhile isOuter = s.reverse := by
      cases hs : s.reverse with
      | nil => rfl
      | cons c t =>
        rw [hs] at hlast
        exact List.dropWhile_cons_of_neg (by simp [hlast c rfl])
    rw [hkept, List.reverse_reverse, hinner]

theorem IsPlain.tidy {s : List Char} (h : IsPlain s) (hend : EndsPlainly s) : tidy s = s :=
  tidy_eq_self.2 ⟨h.filter_isInner, hend⟩

theorem normaliseFrom_plain (before : List String) {name : List Char} (h : IsPlain name)
    (hend : EndsPlainly name) :
    normaliseFrom before (segments (pathText (tidy name))) = before.reverse ++ [encodePath name] := by
  rw [h.tidy hend, pathText_of_bare h.isBare, h.segments,
    normaliseFrom_single before h.not_isParent h.not_isSame]

/-- A name that is one of its own segments has lost no character. -/
theorem whole_of_mem_segments {s : List Char} (h : s ∈ segments (pathText (tidy s))) :
    (∀ c ∈ s, c ∉ ['/', '\\', '?', '#', '\t', '\n', '\r']) ∧ EndsPlainly s := by
  obtain ⟨hsub, hwhole⟩ := mem_segments h
  have hpathText : pathText (Url.tidy s) = Url.tidy s :=
    (pathText_sublist _).eq_of_length_le ((tidy_sublist _).length_le.trans hsub.length_le)
  have htidy : Url.tidy s = s :=
    (tidy_sublist _).eq_of_length_le (hsub.length_le.trans (pathText_sublist _).length_le)
  have hbare : IsBare s := by
    have hbare := isBare_pathText (Url.tidy s)
    rwa [hpathText, htidy] at hbare
  obtain ⟨hinner, hend⟩ := tidy_eq_self.1 htidy
  refine ⟨fun c hc hmem => ?_, hend⟩
  have hslash := hwhole c hc
  have hquestion := hbare.question c hc
  have hnumber := hbare.number c hc
  have hkept := List.filter_eq_self.1 hinner c hc
  simp only [List.mem_cons, List.not_mem_nil, or_false] at hmem
  obtain rfl | rfl | rfl | rfl | rfl | rfl | rfl := hmem
  · exact hslash.1 rfl
  · exact hslash.2 rfl
  · cases hquestion
  · cases hnumber
  · cases hkept
  · cases hkept
  · cases hkept

/-- Whatever is left out of a name is missing in what is read back. -/
theorem plain_of_last_segment {before front : List String} {segment : String} {name : List Char}
    (hpath : normaliseFrom before (segments (pathText (tidy name))) = front ++ [segment])
    (hread : percentDecode segment.toList = bytes name) : IsPlain name ∧ EndsPlainly name := by
  obtain ⟨front', last, hlast, hcases⟩ :=
    normaliseFrom_last before (segments_ne_nil (pathText (tidy name)))
  obtain rfl : segment = last := by
    have heq := List.append_inj_right' (hpath.symm.trans hlast) rfl
    exact List.singleton_inj.1 heq
  obtain rfl | ⟨l, hl, rfl, hparent, hsame⟩ := hcases
  · obtain rfl : name = [] := bytes_injective hread.symm
    exact ⟨by decide, by decide⟩
  · rw [Url.percentDecode_encodePath] at hread
    have hsub : l.Sublist name :=
      (mem_segments hl).1.trans ((pathText_sublist _).trans (tidy_sublist _))
    have hlength := (length_percentDecode l).1
    rw [hread] at hlength
    obtain rfl : l = name := eq_of_length_bytes hsub hlength
    obtain ⟨hwhole, hend⟩ := whole_of_mem_segments hl
    refine ⟨⟨hwhole, ⟨?_, ?_⟩, isLiteral_of_length (by rw [hread])⟩, hend⟩
    · rintro rfl
      cases hsame
    · rintro rfl
      cases hparent

/-- The segment that a name becomes at the end of an address is read back as the name iff the name
is plain. -/
theorem last_segment_iff (before : List String) (name : List Char) :
    (∃ segment, normaliseFrom before (segments (pathText (tidy name))) = before.reverse ++ [segment] ∧
      queryText? (tidy name) = none ∧ percentDecode segment.toList = bytes name) ↔
    IsPlain name ∧ EndsPlainly name := by
  constructor
  · rintro ⟨segment, hpath, -, hread⟩
    exact plain_of_last_segment hpath hread
  · rintro ⟨hplain, hend⟩
    refine ⟨_, normaliseFrom_plain before hplain hend, ?_, hplain.percentDecode_encodePath⟩
    rw [hplain.tidy hend, queryText?_of_bare hplain.isBare]

/-! ## What a request asks for -/

theorem slash_not_mem_encoded {s : List Char} (h : '/' ∉ s) : '/' ∉ encoded s := by
  intro hmem
  obtain ⟨c, hc, hin⟩ := List.mem_flatMap.1 hmem
  obtain hkept | ⟨-, -, henc⟩ := encodeChar_cases c
  · rw [hkept, List.mem_singleton] at hin
    exact h (hin ▸ hc)
  · rw [henc] at hin
    obtain ⟨b, -, hb⟩ := List.mem_flatMap.1 hin
    have hdigit : ∀ n : Fin 16, hexDigit n ≠ '/' := by decide
    have hlt : b.toNat < 256 := b.toNat_lt
    unfold encodeByte at hb
    simp only [List.mem_cons, List.not_mem_nil, or_false] at hb
    obtain hb | hb | hb := hb
    · cases hb
    · exact hdigit ⟨b.toNat / 16, by omega⟩ hb.symm
    · exact hdigit ⟨b.toNat % 16, by omega⟩ hb.symm

theorem IsPlain.slash_not_mem {s : List Char} (h : IsPlain s) : '/' ∉ (encodePath s).toList := by
  rw [toList_encodePath]
  exact slash_not_mem_encoded fun hmem => h.whole _ hmem (by decide)

/-- The segments of a path, each behind a slash. -/
def slashed (path : List String) : List Char := path.flatMap fun s => '/' :: s.toList

theorem slashed_cons (s : String) (path : List String) :
    slashed (s :: path) = '/' :: (s.toList ++ slashed path) := rfl

theorem slashed_eq {path : List String} (h : path ≠ []) :
    slashed path = '/' :: ("/".intercalate path).toList := by
  induction path with
  | nil => exact absurd rfl h
  | cons s path ih =>
    cases path with
    | nil => rw [String.intercalate_singleton, slashed_cons, show slashed [] = [] from rfl,
        List.append_nil]
    | cons t path =>
      rw [String.intercalate_cons_cons, slashed_cons, ih (List.cons_ne_nil t path)]
      simp

theorem toList_target {u : Url} (hpath : u.path ≠ []) (hquery : u.query = none) :
    u.target.toList = slashed u.path := by
  rw [slashed_eq hpath]
  unfold target
  simp [hquery]

theorem takeWhile_slashed {s : String} (h : '/' ∉ s.toList) (path : List String) :
    (s.toList ++ slashed path).takeWhile (· != '/') = s.toList := by
  rw [List.takeWhile_append_of_pos (ne_of_not_mem h)]
  cases path with
  | nil => exact List.append_nil _
  | cons t path => exact List.append_nil _

theorem slashed_injective {p q : List String} (hp : ∀ s ∈ p, '/' ∉ s.toList)
    (hq : ∀ s ∈ q, '/' ∉ s.toList) (h : slashed p = slashed q) : p = q := by
  induction p generalizing q with
  | nil =>
    cases q with
    | nil => rfl
    | cons t q => cases h
  | cons s p ih =>
    cases q with
    | nil => cases h
    | cons t q =>
      rw [List.forall_mem_cons] at hp hq
      have hrest : s.toList ++ slashed p = t.toList ++ slashed q := (List.cons.inj h).2
      have hhead : s.toList = t.toList := by
        rw [← takeWhile_slashed hp.1 p, hrest, takeWhile_slashed hq.1 q]
      rw [hhead] at hrest
      rw [String.toList_injective hhead, ih hp.2 hq.2 (List.append_cancel_left hrest)]

theorem target_injective {u v : Url} {folder p q : List String} (hu : u.path = folder ++ p)
    (hv : v.path = folder ++ q) (huquery : u.query = none) (hvquery : v.query = none)
    (hp : ∀ s ∈ p, '/' ∉ s.toList) (hq : ∀ s ∈ q, '/' ∉ s.toList) (hpne : p ≠ []) (hqne : q ≠ [])
    (h : u.target = v.target) : p = q := by
  have hslashed : ∀ p : List String, slashed (folder ++ p) = slashed folder ++ slashed p :=
    fun p => List.flatMap_append
  have hlists := congrArg String.toList h
  rw [toList_target (by simp [hu, hpne]) huquery, toList_target (by simp [hv, hqne]) hvquery, hu, hv,
    hslashed, hslashed] at hlists
  exact slashed_injective hp hq (List.append_cancel_left hlists)

end CertRuns.Url
