import CertRuns.Proofs.Http.Percent
import Mathlib.Data.List.TakeWhile

/-!
# Addresses put together from two texts

The address of a server and the path of a resource are put together and then parsed as one text.
What the path becomes depends on the address only through the folders that it names.

* `tidy`, `clean_append` : blanks and line breaks;
* `pathText`, `queryText?` : where the path of an address ends;
* `segments_append`, `enter`, `normaliseFrom_append` : paths put together;
* `parse?_append` : an address with something behind it.
-/

namespace CertRuns.Url

/-! ## Cutting texts -/

theorem dropWhile_append_cons {p : Char → Bool} {c : Char} (hc : p c = false) (s t : List Char) :
    (s ++ c :: t).dropWhile p = s.dropWhile p ++ c :: t := by
  induction s with
  | nil => rw [List.nil_append, List.dropWhile_cons_of_neg (by simp [hc])]; rfl
  | cons a s ih =>
    by_cases ha : p a = true
    · rw [List.cons_append, List.dropWhile_cons_of_pos ha, List.dropWhile_cons_of_pos ha, ih]
    · rw [List.cons_append, List.dropWhile_cons_of_neg ha, List.dropWhile_cons_of_neg ha]
      rfl

theorem takeWhile_append_cons {p : Char → Bool} {c : Char} (hc : p c = false) (s t : List Char) :
    (s ++ c :: t).takeWhile p = s.takeWhile p := by
  induction s with
  | nil => rw [List.nil_append, List.takeWhile_cons_of_neg (by simp [hc])]; rfl
  | cons a s ih =>
    by_cases ha : p a = true
    · rw [List.cons_append, List.takeWhile_cons_of_pos ha, List.takeWhile_cons_of_pos ha, ih]
    · rw [List.cons_append, List.takeWhile_cons_of_neg ha, List.takeWhile_cons_of_neg ha]

theorem ne_of_not_mem {c : Char} {s : List Char} (h : c ∉ s) : ∀ a ∈ s, (a != c) = true := by
  intro a ha
  rw [bne_iff_ne]
  rintro rfl
  exact h ha

def isOuter (c : Char) : Bool := c.toNat ≤ 32

def isInner (c : Char) : Bool := c != '\t' && c != '\n' && c != '\r'

def tidy (s : List Char) : List Char := (s.reverse.dropWhile isOuter).reverse.filter isInner

theorem tidy_append (s t : List Char) : tidy (s ++ '/' :: t) = s.filter isInner ++ '/' :: tidy t := by
  unfold tidy
  rw [List.reverse_append, List.reverse_cons, List.append_assoc, List.singleton_append,
    dropWhile_append_cons (by decide)]
  simp [isInner]

theorem clean_eq (s : List Char) : clean s = tidy (s.dropWhile isOuter) := rfl

theorem clean_append (s t : List Char) :
    clean (s ++ '/' :: t) = (s.dropWhile isOuter).filter isInner ++ '/' :: tidy t := by
  rw [clean_eq, dropWhile_append_cons (by decide), tidy_append]

theorem tidy_sublist (s : List Char) : (tidy s).Sublist s := by
  have hdrop := (s.reverse.dropWhile_sublist isOuter).reverse
  rw [List.reverse_reverse] at hdrop
  exact List.filter_sublist.trans hdrop

/-! ## The path of an address and the query behind it -/

def pathText (s : List Char) : List Char := (s.takeWhile (· != '#')).takeWhile (· != '?')

def queryText? (s : List Char) : Option String :=
  match (s.takeWhile (· != '#')).dropWhile (· != '?') with
  | '?' :: q => some (encodeQuery q)
  | _ => none

/-- Neither a question mark nor a number sign stands in the text. -/
def IsBare (s : List Char) : Prop := '?' ∉ s ∧ '#' ∉ s

instance (s : List Char) : Decidable (IsBare s) := inferInstanceAs (Decidable (_ ∧ _))

theorem IsBare.sublist {s t : List Char} (h : IsBare t) (hsub : s.Sublist t) : IsBare s :=
  ⟨fun hmem => h.1 (hsub.mem hmem), fun hmem => h.2 (hsub.mem hmem)⟩

theorem isBare_append {s t : List Char} : IsBare (s ++ t) ↔ IsBare s ∧ IsBare t := by
  unfold IsBare
  rw [List.mem_append, List.mem_append, not_or, not_or]
  exact and_and_and_comm

theorem isBare_slash {s : List Char} : IsBare ('/' :: s) ↔ IsBare s := by
  unfold IsBare
  rw [List.mem_cons, List.mem_cons]
  simp

theorem isBare_filter_isInner {s : List Char} : IsBare (s.filter isInner) ↔ IsBare s := by
  unfold IsBare
  rw [List.mem_filter, List.mem_filter]
  simp [isInner]

theorem IsBare.question {s : List Char} (h : IsBare s) : ∀ c ∈ s, (c != '?') = true :=
  ne_of_not_mem h.1

theorem IsBare.number {s : List Char} (h : IsBare s) : ∀ c ∈ s, (c != '#') = true :=
  ne_of_not_mem h.2

theorem pathText_append {s : List Char} (h : IsBare s) (t : List Char) :
    pathText (s ++ t) = s ++ pathText t := by
  unfold pathText
  rw [List.takeWhile_append_of_pos h.number, List.takeWhile_append_of_pos h.question]

theorem queryText?_append {s : List Char} (h : IsBare s) (t : List Char) :
    queryText? (s ++ t) = queryText? t := by
  unfold queryText?
  rw [List.takeWhile_append_of_pos h.number, List.dropWhile_append_of_pos h.question]

theorem pathText_of_bare {s : List Char} (h : IsBare s) : pathText s = s := by
  have happend := pathText_append h []
  rwa [List.append_nil, show pathText [] = [] from rfl, List.append_nil] at happend

theorem queryText?_of_bare {s : List Char} (h : IsBare s) : queryText? s = none := by
  have happend := queryText?_append h []
  rwa [List.append_nil] at happend

theorem pathText_sublist (s : List Char) : (pathText s).Sublist s :=
  (List.takeWhile_sublist _).trans (List.takeWhile_sublist _)

theorem isBare_pathText (s : List Char) : IsBare (pathText s) := by
  unfold pathText
  constructor
  · intro hmem
    simpa using List.mem_takeWhile_imp hmem
  · intro hmem
    simpa using List.mem_takeWhile_imp ((List.takeWhile_sublist _).mem hmem)

/-- Behind a question mark or a number sign nothing belongs to the path. -/
theorem pathText_append_of_not_bare {s : List Char} (h : ¬IsBare s) (t : List Char) :
    pathText (s ++ t) = pathText s := by
  have hcut : ∀ {c : Char} {s : List Char} (_ : c ∈ s) (t : List Char),
      (s ++ t).takeWhile (· != c) = s.takeWhile (· != c) := by
    intro c s hc t
    obtain ⟨u, v, rfl⟩ := List.append_of_mem hc
    rw [List.append_assoc, List.cons_append, takeWhile_append_cons (by simp),
      takeWhile_append_cons (by simp)]
  unfold pathText
  by_cases hnumber : '#' ∈ s
  · rw [hcut hnumber]
  · have hquestion : '?' ∈ s := by
      by_contra hquestion
      exact h ⟨hquestion, hnumber⟩
    have hkept := ne_of_not_mem hnumber
    rw [List.takeWhile_append_of_pos hkept, List.takeWhile_eq_self_iff.2 hkept, hcut hquestion]

/-! ## Segments -/

def isSlash (c : Char) : Bool := c == '/' || c == '\\'

theorem segments_ne_nil (s : List Char) : segments s ≠ [] := by
  cases s with
  | nil => exact List.cons_ne_nil _ _
  | cons c s =>
    unfold segments
    split
    · exact List.cons_ne_nil _ _
    · split <;> exact List.cons_ne_nil _ _

theorem segments_append (s t : List Char) : segments (s ++ '/' :: t) = segments s ++ segments t := by
  induction s with
  | nil => rfl
  | cons c s ih =>
    rw [List.cons_append, segments, segments]
    split
    · rw [ih]
      rfl
    · obtain ⟨u, us, hsegments⟩ := List.exists_cons_of_ne_nil (segments_ne_nil s)
      rw [ih, hsegments]
      rfl

theorem segments_of_whole {s : List Char} (h : ∀ c ∈ s, c ≠ '/' ∧ c ≠ '\\') : segments s = [s] := by
  induction s with
  | nil => rfl
  | cons c s ih =>
    have hc := h c List.mem_cons_self
    rw [segments, if_neg (by simp [hc]), ih fun d hd => h d (List.mem_cons_of_mem _ hd)]

theorem mem_segments {s l : List Char} (h : l ∈ segments s) :
    l.Sublist s ∧ ∀ c ∈ l, c ≠ '/' ∧ c ≠ '\\' := by
  induction s generalizing l with
  | nil =>
    obtain rfl : l = [] := by simpa [segments] using h
    exact ⟨List.Sublist.refl _, fun c hc => by simp at hc⟩
  | cons c s ih =>
    rw [segments] at h
    split at h
    · obtain rfl | h := List.mem_cons.1 h
      · exact ⟨List.nil_sublist _, fun c hc => by simp at hc⟩
      · exact ⟨(ih h).1.cons _, (ih h).2⟩
    · rename_i hc
      obtain ⟨u, us, hsegments⟩ := List.exists_cons_of_ne_nil (segments_ne_nil s)
      rw [hsegments] at h ih
      obtain rfl | h := List.mem_cons.1 h
      · obtain ⟨hsub, hwhole⟩ := ih List.mem_cons_self
        refine ⟨hsub.cons_cons _, ?_⟩
        rw [List.forall_mem_cons]
        exact ⟨not_or.1 hc, hwhole⟩
      · exact ⟨(ih (List.mem_cons_of_mem _ h)).1.cons _, (ih (List.mem_cons_of_mem _ h)).2⟩

/-- The folder that a segment leads to from another, both with the last segment first. -/
def enter (before : List String) (s : List Char) : List String :=
  if isParent s then before.tail else if isSame s then before else encodePath s :: before

theorem normaliseFrom_cons (before : List String) (s : List Char) {ss : List (List Char)}
    (h : ss ≠ []) : normaliseFrom before (s :: ss) = normaliseFrom (enter before s) ss := by
  rw [normaliseFrom]
  · unfold enter
    split
    · rfl
    · split <;> rfl
  · exact h

theorem normaliseFrom_append (before : List String) (ss : List (List Char))
    {ts : List (List Char)} (h : ts ≠ []) :
    normaliseFrom before (ss ++ ts) = normaliseFrom (ss.foldl enter before) ts := by
  induction ss generalizing before with
  | nil => rfl
  | cons s ss ih =>
    rw [List.cons_append, normaliseFrom_cons before s (List.append_ne_nil_of_right_ne_nil ss h), ih,
      List.foldl_cons]

/-- A last segment without a special meaning stays. -/
theorem normaliseFrom_single (before : List String) {s : List Char} (hparent : isParent s = false)
    (hsame : isSame s = false) :
    normaliseFrom before [s] = before.reverse ++ [encodePath s] := by
  rw [normaliseFrom, if_neg (by simp [hparent]), if_neg (by simp [hsame]), List.reverse_cons]

/-- The last segment of a path is one of the text's or empty. -/
theorem normaliseFrom_last (before : List String) {ss : List (List Char)} (h : ss ≠ []) :
    ∃ front last, normaliseFrom before ss = front ++ [last] ∧
      (last = "" ∨ ∃ s ∈ ss, last = encodePath s ∧ isParent s = false ∧ isSame s = false) := by
  have hsplit := List.dropLast_append_getLast h
  generalize ss.dropLast = front at hsplit
  generalize ss.getLast h = s at hsplit
  rw [← hsplit, normaliseFrom_append before front (List.cons_ne_nil s []), normaliseFrom]
  split
  · exact ⟨_, _, List.reverse_cons, .inl rfl⟩
  · split
    · exact ⟨_, _, List.reverse_cons, .inl rfl⟩
    · rename_i hparent hsame
      refine ⟨_, _, List.reverse_cons, .inr ⟨s, by simp, rfl, ?_, ?_⟩⟩
      · simpa using hparent
      · simpa using hsame

theorem normalise_append {s : List Char} (h : ∀ c ∈ s.head?, isSlash c = true) :
    ∃ before, ∀ t, normalise (s ++ '/' :: t) = normaliseFrom before (segments t) := by
  cases s with
  | nil => exact ⟨[], fun t => rfl⟩
  | cons c s =>
    refine ⟨(segments s).foldl enter [], fun t => ?_⟩
    have hc : c = '/' ∨ c = '\\' := by simpa [isSlash] using h
    have hbody : normalise (c :: (s ++ '/' :: t)) = normaliseFrom [] (segments (s ++ '/' :: t)) := by
      obtain rfl | rfl := hc <;> rfl
    rw [List.cons_append, hbody, segments_append, normaliseFrom_append _ _ (segments_ne_nil t)]

/-! ## An address with something behind it -/

def secure? (name : List Char) : Option Bool :=
  let name := String.ofList (name.map Char.toLower)
  if name = "http" then some false else if name = "https" then some true else none

theorem scheme?_colon {name : List Char} (h : ':' ∉ name) (s : List Char) :
    scheme? (name ++ ':' :: s) = (secure? name).map (·, s) := by
  have hname := ne_of_not_mem h
  unfold scheme? secure?
  rw [takeWhile_append_cons (by decide), List.takeWhile_eq_self_iff.2 hname,
    dropWhile_append_cons (by decide), List.dropWhile_eq_nil_iff.2 hname]
  dsimp only
  split
  · rfl
  · split <;> rfl

theorem scheme?_of_slash {s : List Char} (hcolon : ':' ∉ s) (hslash : '/' ∈ s) :
    scheme? s = none := by
  have hname : ∀ name : String, '/' ∉ name.toList → String.ofList (s.map Char.toLower) ≠ name := by
    rintro _ hname rfl
    rw [String.toList_ofList] at hname
    exact hname (List.mem_map.2 ⟨'/', hslash, by decide⟩)
  unfold scheme?
  rw [List.takeWhile_eq_self_iff.2 (ne_of_not_mem hcolon)]
  dsimp only
  rw [if_neg (hname "http" (by decide)), if_neg (hname "https" (by decide))]

theorem scheme?_append {s : List Char} {secure : Bool} {r : List Char}
    (h : scheme? (s ++ ['/']) = some (secure, r)) :
    ∃ rest, rest.Sublist s ∧ r = rest ++ ['/'] ∧
      ∀ t, scheme? (s ++ '/' :: t) = some (secure, rest ++ '/' :: t) := by
  by_cases hcolon : ':' ∈ s
  · obtain ⟨name, rest, rfl, hname⟩ := List.eq_append_cons_of_mem hcolon
    rw [List.append_assoc, List.cons_append, scheme?_colon hname] at h
    obtain ⟨_, hsecure, heq⟩ := Option.map_eq_some_iff.1 h
    cases heq
    refine ⟨rest, (List.sublist_cons_self _ _).trans (List.sublist_append_right _ _), rfl, ?_⟩
    intro t
    rw [List.append_assoc, List.cons_append, scheme?_colon hname, hsecure]
    rfl
  · rw [scheme?_of_slash (by simp [hcolon]) (by simp)] at h
    cases h

/-- A character at which the host of an address does not end. -/
def inHost (c : Char) : Bool := !(c == '/' || c == '\\' || c == '?')

/-- The parts of an address, from what stands behind its scheme. -/
def parts? (secure : Bool) (s : List Char) : Option Url :=
  let r := (s.dropWhile isSlash).takeWhile (· != '#')
  (authority? (r.takeWhile inHost)).map fun authority =>
    let r := r.dropWhile inHost
    let query := match r.dropWhile (· != '?') with
      | '?' :: q => some (encodeQuery q)
      | _ => none
    { secure, authority, path := normalise (r.takeWhile (· != '?')), query }

theorem parse?_eq (s : List Char) :
    parse? (String.ofList s) = (scheme? (clean s)).bind fun r => parts? r.1 r.2 := by
  unfold parse?
  rw [String.toList_ofList]
  cases scheme? (clean s) with
  | none => rfl
  | some r =>
    show Option.bind (authority? _) _ = Option.map _ (authority? _)
    rw [Option.map_eq_bind]
    rfl

theorem host_ne_nil {secure : Bool} {s : List Char} {base : Url}
    (h : parts? secure (s ++ ['/']) = some base) : s.dropWhile isSlash ≠ [] := by
  intro hnil
  have hall : (s ++ ['/']).dropWhile isSlash = [] := by
    rw [List.dropWhile_append_of_pos (List.dropWhile_eq_nil_iff.1 hnil)]
    rfl
  unfold parts? at h
  rw [hall] at h
  cases h

/-- A host ends at a slash, unless a query follows it. -/
theorem head?_dropWhile_inHost {s : List Char} (h : '?' ∉ s) :
    ∀ c ∈ (s.dropWhile inHost).head?, isSlash c = true := by
  intro c hc
  have hnot := List.head?_dropWhile_not inHost s
  rw [hc] at hnot
  have hquestion : c ≠ '?' := by
    rintro rfl
    exact h ((List.dropWhile_sublist _).mem (List.mem_of_mem_head? hc))
  by_cases hslash : c = '/'
  · simp [isSlash, hslash]
  · simpa [isSlash, inHost, hslash, hquestion] using hnot

theorem parts?_eq (secure : Bool) {s : List Char} (hbare : IsBare s)
    (hhost : s.dropWhile isSlash ≠ []) (t : List Char) :
    parts? secure (s ++ '/' :: t) =
      (authority? ((s.dropWhile isSlash).takeWhile inHost)).map fun authority =>
        { secure, authority
          path := normalise ((s.dropWhile isSlash).dropWhile inHost ++ '/' :: pathText t)
          query := queryText? t } := by
  have hrest : IsBare (s.dropWhile isSlash) := hbare.sublist (List.dropWhile_sublist _)
  have hcut : ((s ++ '/' :: t).dropWhile isSlash).takeWhile (· != '#') =
      s.dropWhile isSlash ++ '/' :: t.takeWhile (· != '#') := by
    rw [List.dropWhile_append, if_neg (by simpa using hhost),
      List.takeWhile_append_of_pos hrest.number, List.takeWhile_cons_of_pos (by decide)]
  unfold parts?
  dsimp only
  rw [hcut, takeWhile_append_cons (by decide), dropWhile_append_cons (by decide)]
  generalize hfolder : (s.dropWhile isSlash).dropWhile inHost = folder
  have hbareFolder : IsBare folder := by
    rw [← hfolder]
    exact hrest.sublist (List.dropWhile_sublist _)
  rw [List.takeWhile_append_of_pos hbareFolder.question, List.takeWhile_cons_of_pos (by decide),
    List.dropWhile_append_of_pos hbareFolder.question, List.dropWhile_cons_of_pos (by decide)]
  rfl

/-- What follows the first slash behind a host is in the path and the query only. -/
theorem parts?_append {secure : Bool} {s : List Char} (hbare : IsBare s) {base : Url}
    (hbase : parts? secure (s ++ ['/']) = some base) :
    ∃ before, base.path = before.reverse ++ [""] ∧ base.query = none ∧ ∀ t,
      parts? secure (s ++ '/' :: t) =
        some { base with
          path := normaliseFrom before (segments (pathText t))
          query := queryText? t } := by
  have hparts := parts?_eq secure hbare (host_ne_nil hbase)
  obtain ⟨before, hbefore⟩ := normalise_append
    (head?_dropWhile_inHost (hbare.sublist (List.dropWhile_sublist isSlash)).1)
  simp only [hbefore] at hparts
  rw [hparts] at hbase
  obtain ⟨authority, hauthority, rfl⟩ := Option.map_eq_some_iff.1 hbase
  refine ⟨before, List.reverse_cons, rfl, fun t => ?_⟩
  rw [hparts, hauthority]
  rfl

theorem parse?_append {address : List Char} (hbare : IsBare address) {base : Url}
    (hbase : parse? (String.ofList (address ++ ['/'])) = some base) :
    ∃ before, base.path = before.reverse ++ [""] ∧ base.query = none ∧ ∀ t,
      parse? (String.ofList (address ++ '/' :: t)) =
        some { base with
          path := normaliseFrom before (segments (pathText (tidy t)))
          query := queryText? (tidy t) } := by
  simp only [parse?_eq, clean_append] at hbase ⊢
  obtain ⟨⟨secure, r⟩, hscheme, hparts⟩ := Option.bind_eq_some_iff.1 hbase
  obtain ⟨rest, hrest, rfl, hschemes⟩ := scheme?_append hscheme
  have hrestBare : IsBare rest :=
    hbare.sublist (hrest.trans (List.filter_sublist.trans (List.dropWhile_sublist _)))
  obtain ⟨before, hpath, hquery, hall⟩ := parts?_append hrestBare hparts
  refine ⟨before, hpath, hquery, fun t => ?_⟩
  rw [hschemes, Option.bind_some, hall]

end CertRuns.Url
