import CertRuns.Json.Printer
import CertRuns.Proofs.Number.Decimal
import Mathlib.Data.List.Forall2

/-!
# Tokens are read from their spellings

A token may be spelled in more than one way: a number with either mark of an exponent, a character
of a string by itself or behind a backslash. It is read from all its spellings, whatever follows.
Only a number needs that the text after it does not go on as a number would.

* `Ends s` : no number goes on in `s`;
* `ExponentSpelled`, `NumeralSpelled`, `Quoted.Part.Spelled`, `Token.Spelled` : the spellings;
* `exponent?_spelled`, `numeral?_append`, `Quoted.scan_spelled` : what is read from them;
* `Token.read?_spelled` : a token is read from all its spellings;
* `Token.spelled_chars`, `Token.read?_chars` : how a token is written is one of them.
-/

namespace CertRuns.Json

open Decimal (Digit)
open Text (Symbol)

/-! ## Numbers -/

/-- Does a text not start with one of the digits? -/
def NoDigit (s : List Symbol) : Prop := ∀ c, s.head? = some (some c) → Decimal.digit? c = none

/-- No number goes on here: there is no digit, point or mark of an exponent. -/
structure Ends (s : List Symbol) : Prop where
  noDigit : NoDigit s
  noMark : ∀ c, s.head? = some (some c) → c ≠ '.' ∧ c ≠ 'e' ∧ c ≠ 'E'

/-- Neither the digits of a number nor its fraction go on here. -/
structure Stops (s : List Symbol) : Prop where
  noDigit : NoDigit s
  noPoint : s.head? ≠ some (some '.')

theorem ends_nil : Ends [] where
  noDigit _ h := by cases h
  noMark _ h := by cases h

theorem noDigit_cons {c : Char} {s : List Symbol} (h : Decimal.digit? c = none) :
    NoDigit (some c :: s) := by
  intro d hd
  cases hd
  exact h

theorem ends_cons {c : Char} {s : List Symbol} (hdigit : Decimal.digit? c = none)
    (h : c ≠ '.' ∧ c ≠ 'e' ∧ c ≠ 'E') : Ends (some c :: s) := by
  refine ⟨noDigit_cons hdigit, fun d hd => ?_⟩
  cases hd
  exact h

theorem Ends.stops {s : List Symbol} (h : Ends s) : Stops s :=
  ⟨h.noDigit, fun hs => (h.noMark '.' hs).1 rfl⟩

def ofDigits (ds : List Digit) : List Symbol := ds.map fun d => some d.char

theorem ofDigits_cons (d : Digit) (ds : List Digit) :
    ofDigits (d :: ds) = some d.char :: ofDigits ds := rfl

theorem map_some_map_char (ds : List Digit) : (ds.map Digit.char).map some = ofDigits ds :=
  List.map_map

/-- Digits are read up to what is none. -/
theorem digitRun_append (ds : List Digit) {s : List Symbol} (h : NoDigit s) :
    digitRun (ofDigits ds ++ s) = (ds, s) := by
  induction ds with
  | nil =>
    cases s with
    | nil => rfl
    | cons x s =>
      cases x with
      | none => rfl
      | some c =>
        have hc := h c rfl
        simp [ofDigits, digitRun, hc]
  | cons d ds ih => rw [ofDigits_cons, List.cons_append, digitRun, Decimal.digit?_char, ih]

theorem char_eq_zero {d : Digit} (h : d.char = '0') : d = 0 := by
  revert d
  decide

def ofFraction (ds : List Digit) : List Symbol :=
  if ds = [] then [] else some '.' :: ofDigits ds

/-- The spellings of an exponent: nothing at all, or its mark, a sign that may be left out if it is
a plus sign, and at least one digit. -/
inductive ExponentSpelled : Option Int → List Symbol → Prop
  | none : ExponentSpelled none []
  | plus {mark : Char} (hmark : mark = 'e' ∨ mark = 'E') {sign : List Symbol}
      (hsign : sign = [] ∨ sign = [some '+']) {ds : List Digit} (hds : ds ≠ []) :
      ExponentSpelled (some (Decimal.value ds)) (some mark :: (sign ++ ofDigits ds))
  | minus {mark : Char} (hmark : mark = 'e' ∨ mark = 'E') {ds : List Digit} (hds : ds ≠ []) :
      ExponentSpelled (some (-(Decimal.value ds : Int))) (some mark :: some '-' :: ofDigits ds)

/-- The spellings of a number: a minus sign or none, the whole part without leading zeros, the
fraction with all its digits, and the exponent. -/
def NumeralSpelled (n : Numeral) (s : List Symbol) : Prop :=
  ∃ w, ExponentSpelled n.exponent w ∧ s = (if n.negative then [some '-'] else []) ++
    (ofDigits (Decimal.digits n.whole) ++ (ofFraction n.fraction ++ w))

/-- A fraction is read up to what neither is a digit nor would start a fraction. -/
theorem fraction?_append (ds : List Digit) {s : List Symbol} (h : Stops s) :
    fraction? (ofFraction ds ++ s) = some (ds, s) := by
  unfold ofFraction
  split
  · rename_i hds
    subst hds
    rw [List.nil_append]
    unfold fraction?
    split
    · exact absurd rfl h.noPoint
    · rfl
  · rename_i hds
    rw [List.cons_append, fraction?, digitRun_append ds h.noDigit]
    cases ds with
    | nil => exact absurd rfl hds
    | cons d ds => rfl

theorem exponentDigits?_append (negative : Bool) {ds : List Digit} (hds : ds ≠ [])
    {s : List Symbol} (h : NoDigit s) : exponentDigits? negative (ofDigits ds ++ s) =
      some (some (if negative then -(Decimal.value ds : Int) else Decimal.value ds), s) := by
  rw [exponentDigits?, digitRun_append _ h]
  cases ds with
  | nil => exact absurd rfl hds
  | cons d ds => rfl

/-- The digits of an exponent stand without a sign or behind one. -/
theorem exponent?_digits (c : Char) (hc : c = 'e' ∨ c = 'E') (ds : List Digit) (s : List Symbol)
    (hds : ds ≠ []) :
    exponent? (some c :: (ofDigits ds ++ s)) = exponentDigits? false (ofDigits ds ++ s) := by
  cases ds with
  | nil => exact absurd rfl hds
  | cons d ds =>
    obtain ⟨hplus, hminus⟩ := Decimal.char_ne_sign d
    have hhead {x : Char} {r : List Symbol} (heq : ofDigits (d :: ds) ++ s = some x :: r) :
        d.char = x := by
      rw [ofDigits_cons, List.cons_append, List.cons.injEq, Option.some.injEq] at heq
      exact heq.1
    rw [exponent?, if_pos hc]
    · exact fun r heq => hplus (hhead heq)
    · exact fun r heq => hminus (hhead heq)

theorem exponent?_spelled {e : Option Int} {w s : List Symbol} (h : ExponentSpelled e w)
    (hs : Ends s) : exponent? (w ++ s) = some (e, s) := by
  cases h with
  | none =>
    rw [List.nil_append]
    unfold exponent?
    split
    · rename_i c r
      have hc := hs.noMark c rfl
      rw [if_neg (by simp [hc])]
    · rfl
  | @plus mark hmark sign hsign ds hds =>
    have hread := exponentDigits?_append false hds hs.noDigit
    rw [List.cons_append, List.append_assoc]
    rcases hsign with rfl | rfl
    · rw [List.nil_append, exponent?_digits mark hmark ds s hds, hread]
      rfl
    · rw [List.singleton_append, exponent?, if_pos hmark, hread]
      rfl
  | @minus mark hmark ds hds =>
    have hread := exponentDigits?_append true hds hs.noDigit
    rw [List.cons_append, List.cons_append, exponent?, if_pos hmark, hread]
    rfl

theorem ExponentSpelled.stops {e : Option Int} {w s : List Symbol} (h : ExponentSpelled e w)
    (hs : Ends s) : Stops (w ++ s) := by
  cases h with
  | none => exact hs.stops
  | plus hmark | minus hmark =>
    rcases hmark with rfl | rfl <;> exact ⟨noDigit_cons (by decide), by simp⟩

/-- A number's fraction and exponent are read up to where the exponent ends. -/
theorem numeralTail?_append (negative : Bool) (whole : Nat) (ds : List Digit) {e : Option Int}
    {s rest : List Symbol} (hread : exponent? s = some (e, rest)) (hs : Stops s) :
    numeralTail? negative whole (ofFraction ds ++ s) = some (⟨negative, whole, ds, e⟩, rest) := by
  rw [numeralTail?, fraction?_append ds hs]
  simp [hread]

theorem numeral?_append (negative : Bool) (whole : Nat) (ds : List Digit) {e : Option Int}
    {s rest : List Symbol} (hread : exponent? s = some (e, rest)) (hs : Stops s) :
    numeral? negative (ofDigits (Decimal.digits whole) ++ (ofFraction ds ++ s)) =
      some (⟨negative, whole, ds, e⟩, rest) := by
  have htail := numeralTail?_append negative whole ds hread hs
  have hdigit : NoDigit (ofFraction ds ++ s) := by
    unfold ofFraction
    split
    · exact hs.noDigit
    · exact noDigit_cons (by decide)
  by_cases hwhole : whole = 0
  · have hzero : Decimal.digits 0 = [0] := Decimal.digits_of_lt (by decide)
    subst hwhole
    rw [hzero]
    exact htail
  · obtain ⟨d, ds', hds, hd⟩ := Decimal.digits_eq_cons hwhole
    have hrun := digitRun_append (Decimal.digits whole) hdigit
    rw [hds] at hrun ⊢
    unfold numeral?
    split
    · rename_i r heq
      rw [ofDigits_cons, List.cons_append, List.cons.injEq, Option.some.injEq] at heq
      exact absurd (char_eq_zero heq.1) hd
    · rw [hrun]
      simp only [← hds, Decimal.value_digits]
      exact htail

/-! ## Strings -/

namespace Quoted

/-- The spellings of a part of a string: a character by itself, if it is no control character, or as
an escape, a code unit in hexadecimal digits, or a stray byte. -/
inductive Part.Spelled : Part → List Symbol → Prop
  | plain {c : Char} (hquote : c ≠ '"') (hslash : c ≠ '\\') (hcontrol : ¬ c.toNat < 32) :
      Spelled (.char c) [some c]
  | escape {e c : Char} (h : escape? e = some c) : Spelled (.char c) [some '\\', some e]
  | unit {a b c d : Symbol} {n : Nat} (h : unit? a b c d = some n) :
      Spelled (.unit n) [some '\\', some 'u', a, b, c, d]
  | stray : Spelled .stray [none]

theorem scan_plain {c : Char} (hquote : c ≠ '"') (hslash : c ≠ '\\') (hcontrol : ¬ c.toNat < 32)
    {r rest : List Symbol} {ps : List Part} (h : scan r = some (ps, rest)) :
    scan (some c :: r) = some (.char c :: ps, rest) := by
  rw [scan]
  · simp [hslash, hcontrol, h]
  all_goals simp [hquote, hslash]

theorem scan_escape {e c : Char} (hescape : escape? e = some c) {r rest : List Symbol}
    {ps : List Part} (h : scan r = some (ps, rest)) :
    scan (some '\\' :: some e :: r) = some (.char c :: ps, rest) := by
  have hunit : e ≠ 'u' := by
    rintro rfl
    cases hescape
  rw [scan]
  · simp [hescape, h]
  · simp [hunit]

theorem scan_spelled {ps : List Part} {ws : List (List Symbol)}
    (h : List.Forall₂ Part.Spelled ps ws) (r : List Symbol) :
    scan (ws.flatten ++ some '"' :: r) = some (ps, r) := by
  induction h with
  | nil => simp [scan]
  | cons hp _ ih =>
    rw [List.flatten_cons, List.append_assoc]
    cases hp with
    | plain hquote hslash hcontrol => exact scan_plain hquote hslash hcontrol ih
    | escape hescape => exact scan_escape hescape ih
    | unit hunit => simp [scan, hunit, ih]
    | stray => simp [scan, ih]

def partOf (c : Char) : Part :=
  if c.toNat < 32 ∧ c ∉ ['\x08', '\x0c', '\n', '\r', '\t'] then .unit c.toNat else .char c

theorem hexDigit?_hexChar {n : Nat} (h : n < 16) : hexDigit? (some (hexChar n)) = some n := by
  revert n
  decide

/-- How a character is written is a spelling of it. -/
theorem spelled_escaped (c : Char) : (partOf c).Spelled ((escaped c).map some) := by
  unfold escaped
  iterate 7
    split
    · subst_vars
      exact .escape rfl
  rename_i hquote hslash h8 h12 h10 h13 h9
  split
  · rename_i hcontrol
    have hpart : partOf c = .unit c.toNat := by simp [partOf, hcontrol, h8, h12, h10, h13, h9]
    have hunit : unit? (some '0') (some '0') (some (hexChar (c.toNat / 16)))
        (some (hexChar (c.toNat % 16))) = some c.toNat := by
      have hhigh := hexDigit?_hexChar (n := c.toNat / 16) (by omega)
      have hlow := hexDigit?_hexChar (n := c.toNat % 16) (by omega)
      have hzero : hexDigit? (some '0') = some 0 := rfl
      simp only [unit?, hhigh, hlow, hzero, Option.bind_eq_bind, Option.bind_some,
        Option.pure_def, Option.some.injEq]
      omega
    rw [hpart]
    exact .unit hunit
  · rename_i hcontrol
    have hpart : partOf c = .char c := by simp [partOf, hcontrol]
    rw [hpart]
    exact .plain hquote hslash hcontrol

theorem spelled_text (s : List Char) :
    List.Forall₂ Part.Spelled (s.map partOf) (s.map fun c => (escaped c).map some) := by
  rw [List.forall₂_map_left_iff, List.forall₂_map_right_iff, List.forall₂_same]
  exact fun c _ => spelled_escaped c

theorem assemble_unit {n : Nat} (hn : n < 0xD800) (r : List Part) :
    assemble (.unit n :: r) = (assemble r).map (Char.ofNat n :: ·) := by
  have hhigh : isHigh n = false := by
    simp [isHigh]
    omega
  have hlow : isLow n = false := by
    simp [isLow]
    omega
  cases r with
  | nil => simp [assemble, hhigh, hlow]
  | cons part r =>
    cases part <;> simp [assemble, hhigh, hlow]

/-- The parts of a text make up the text. -/
theorem assemble_parts (s : List Char) : assemble (s.map partOf) = some s := by
  induction s with
  | nil => rfl
  | cons c s ih =>
    rw [List.map_cons, partOf]
    split
    · rename_i hcontrol
      rw [assemble_unit (by omega), ih, Option.map_some, Char.ofNat_toNat]
    · rw [assemble, ih, Option.map_some]

end Quoted

/-! ## Tokens -/

namespace Token

/-- The spellings of a token: punctuation and names have one, a string has those of its parts
between quotes. -/
inductive Spelled : Token → List Symbol → Prop
  | fixed {t : Token} (hnumber : ∀ n, t ≠ .number n) (hstring : ∀ s, t ≠ .string s) :
      Spelled t (t.chars.map some)
  | number {n : Numeral} {w : List Symbol} (h : NumeralSpelled n w) : Spelled (.number n) w
  | string {ps : List Quoted.Part} {ws : List (List Symbol)}
      (h : List.Forall₂ Quoted.Part.Spelled ps ws) :
      Spelled (.string ((Quoted.assemble ps).map String.ofList))
        (some '"' :: (ws.flatten ++ [some '"']))

/-- A number without a sign is told from all other tokens by its first digit. -/
theorem read?_digits {ds : List Digit} (hds : ds ≠ []) {s rest : List Symbol} {n : Numeral}
    (h : numeral? false (ofDigits ds ++ s) = some (n, rest)) :
    read? (ofDigits ds ++ s) = some (.number n, rest) := by
  cases ds with
  | nil => exact absurd rfl hds
  | cons d ds =>
    unfold read?
    split
    case h_12 => simp [h]
    all_goals
      rename_i heq
      rw [ofDigits_cons, List.cons_append, List.cons.injEq, Option.some.injEq] at heq
      have hd := Decimal.digit?_char d
      rw [heq.1] at hd
      exact absurd hd (by simp [Decimal.digit?])

theorem read?_number {n : Numeral} {w rest : List Symbol} (h : NumeralSpelled n w)
    (hrest : Ends rest) : read? (w ++ rest) = some (.number n, rest) := by
  obtain ⟨negative, whole, ds, e⟩ := n
  obtain ⟨w, hw, rfl⟩ := h
  have hread := numeral?_append negative whole ds (exponent?_spelled hw hrest) (hw.stops hrest)
  rw [List.append_assoc, List.append_assoc, List.append_assoc]
  cases negative with
  | true =>
    simp only [if_true, List.cons_append, List.nil_append]
    rw [read?, hread]
    rfl
  | false =>
    simp only [Bool.false_eq_true, if_false, List.nil_append]
    exact read?_digits (Decimal.digits_ne_nil whole) hread

theorem read?_spelled {t : Token} {w rest : List Symbol} (h : t.Spelled w)
    (hrest : ∀ n, t = .number n → Ends rest) : read? (w ++ rest) = some (t, rest) := by
  cases h with
  | fixed hnumber hstring =>
    cases t with
    | number n => exact absurd rfl (hnumber n)
    | string s => exact absurd rfl (hstring s)
    | bool b => cases b <;> rfl
    | _ => rfl
  | number h => exact read?_number h (hrest _ rfl)
  | string h =>
    have hscan := Quoted.scan_spelled h rest
    rw [List.cons_append, List.append_assoc, List.singleton_append, read?, hscan]
    rfl

theorem spelled_exponent (e : Option Int) : ExponentSpelled e ((match e with
    | none => []
    | some e => 'e' :: (if e < 0 then ['-'] else []) ++ Decimal.chars e.natAbs).map some) := by
  cases e with
  | none => exact .none
  | some e =>
    have hne := Decimal.digits_ne_nil e.natAbs
    have hvalue := Decimal.value_digits e.natAbs
    have hdigits : (Decimal.chars e.natAbs).map some = ofDigits (Decimal.digits e.natAbs) :=
      map_some_map_char _
    simp only [List.cons_append, List.map_cons, List.map_append, hdigits]
    have hmark : 'e' = 'e' ∨ 'e' = 'E' := .inl rfl
    by_cases he : e < 0
    · have hminus := ExponentSpelled.minus hmark hne
      have hneg : -((e.natAbs : Nat) : Int) = e := by omega
      rw [hvalue, hneg] at hminus
      rw [if_pos he]
      exact hminus
    · have hplus := ExponentSpelled.plus hmark (.inl rfl) hne
      have hpos : ((e.natAbs : Nat) : Int) = e := by omega
      rw [hvalue, hpos] at hplus
      rw [if_neg he]
      exact hplus

theorem spelled_numeral (n : Numeral) : NumeralSpelled n (n.chars.map some) := by
  obtain ⟨negative, whole, fraction, exponent⟩ := n
  refine ⟨_, spelled_exponent exponent, ?_⟩
  have hdigits : (Decimal.chars whole).map some = ofDigits (Decimal.digits whole) :=
    map_some_map_char _
  have hfraction : (if fraction = [] then [] else '.' :: fraction.map Digit.char).map some =
      ofFraction fraction := by
    unfold ofFraction
    split
    · rfl
    · rw [List.map_cons, map_some_map_char]
  rw [Numeral.chars, List.map_append, List.map_append, List.map_append, hdigits, hfraction,
    List.append_assoc, List.append_assoc]
  congr 1
  cases negative <;> rfl

theorem spelled_chars (t : Token) : t.Spelled (t.chars.map some) := by
  cases t with
  | number n => exact .number (spelled_numeral n)
  | string s =>
    cases s with
    | none => exact .string (.cons (.unit (n := 0xD800) rfl) .nil)
    | some s =>
      have h := Spelled.string (Quoted.spelled_text s.toList)
      rw [Quoted.assemble_parts, Option.map_some, String.ofList_toList] at h
      rw [chars, quotedChars, List.cons_append, List.map_cons, List.map_append,
        List.map_flatMap]
      exact h
  | bool b => cases b <;> exact .fixed nofun nofun
  | _ => exact .fixed nofun nofun

theorem read?_chars (t : Token) {rest : List Symbol} (h : ∀ n, t = .number n → Ends rest) :
    read? (t.chars.map some ++ rest) = some (t, rest) :=
  read?_spelled t.spelled_chars h

end Token

end CertRuns.Json
