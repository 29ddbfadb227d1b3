import CertRuns.Proofs.Number.Decimal
import CertRuns.Time.Timestamp

/-!
# Timestamps that are written are read again

* `Plain t` : the year of `t` has four digits, so that it is written without a sign;
* `field?_padded`, `year?_padded`, `nanos?_fraction` : the parts of a timestamp;
* `parse?_text` : the timestamp of a text that was written.
-/

namespace CertRuns.Timestamp

open Decimal (Digit)

/-- Is the year of a timestamp one of 0 to 9999? -/
def Plain (t : Timestamp) : Prop := 0 ≤ t.year ∧ t.year ≤ 9999

theorem isBlank_char (d : Digit) : Text.isBlank d.char = false := by
  revert d
  decide

/-- A text that starts with no blank is kept. -/
theorem trimStart_cons {c : Char} (h : Text.isBlank c = false) (s : List Char) :
    Text.trimStart (c :: s) = c :: s := by
  simp [Text.trimStart, h]

theorem trimStart_digits (d : Digit) (ds : List Digit) (s : List Char) :
    Text.trimStart ((d :: ds).map Digit.char ++ s) = (d :: ds).map Digit.char ++ s :=
  trimStart_cons (isBlank_char d) _

/-! ## Parts -/

theorem field?_padded {width n : Nat} (h : n < tenTo (width + 1)) (s : List Char) :
    field? (width + 1) (Decimal.padded (width + 1) n ++ s) = some (n, s) := by
  obtain ⟨d, ds, hpadded, hlength, hvalue⟩ := Decimal.padded_eq h
  rw [hpadded, field?, trimStart_digits]
  have htake : ((d :: ds).map Digit.char ++ s).take (width + 1) = (d :: ds).map Digit.char :=
    List.take_left' (by simpa using hlength)
  have hdrop : ((d :: ds).map Digit.char ++ s).drop (d :: ds).length = s :=
    List.drop_left' (by simp)
  simp only [htake, Decimal.spanDigits_map, hdrop, hvalue, reduceCtorEq, if_false]

theorem year?_padded {n : Nat} (h : n < tenTo 4) (s : List Char) :
    year? (Decimal.padded 4 n ++ s) = some ((n : Int), s) := by
  have hfield := field?_padded h s
  obtain ⟨d, ds, hpadded, _, _⟩ := Decimal.padded_eq h
  obtain ⟨hplus, hminus⟩ := Decimal.char_ne_sign d
  rw [hpadded] at hfield ⊢
  rw [year?, trimStart_digits]
  simp only [List.map_cons, List.cons_append] at hfield ⊢
  split
  · rename_i heq
    exact absurd (List.cons.inj heq).1 hminus
  · rename_i heq
    exact absurd (List.cons.inj heq).1 hplus
  · rw [hfield]
    rfl

theorem after?_cons {c : Char} (h : Text.isBlank c = false) (s : List Char) :
    after? c (c :: s) = some s := by
  rw [after?, trimStart_cons h]
  exact if_pos rfl

theorem nanos?_digits (width : Nat) {n nanos : Nat} (hwidth : width + 1 ≤ 9)
    (hn : n < tenTo (width + 1)) (hnanos : n * tenTo (9 - (width + 1)) = nanos) {s : List Char}
    (hs : Decimal.NoDigit s) :
    nanos? ('.' :: (Decimal.padded (width + 1) n ++ s)) = some (nanos, s) := by
  obtain ⟨d, ds, hpadded, hlength, hvalue⟩ := Decimal.padded_eq hn
  have htake : (d :: ds ++ List.replicate 9 0).take 9 =
      d :: ds ++ List.replicate (9 - (width + 1)) 0 := by
    rw [List.take_append, hlength, List.take_of_length_le (by omega), List.take_replicate,
      Nat.min_eq_left (by omega)]
  rw [hpadded, nanos?, Decimal.spanDigits_append _ hs]
  simp only [htake, Decimal.value_append_zeros, hvalue, hnanos]

theorem nanos?_fraction {nanos : Nat} (h : nanos < 1000000000) {s : List Char}
    (hs : Decimal.NoDigit s) (hpoint : s.head? ≠ some '.') :
    nanos? (fractionChars nanos ++ s) = some (nanos, s) := by
  unfold fractionChars
  split
  · rename_i hzero
    subst hzero
    rw [List.nil_append]
    unfold nanos?
    split
    · exact absurd rfl hpoint
    · rfl
  split
  · have hlt : nanos / 1000000 < 1000 := by omega
    have hback : nanos / 1000000 * 1000000 = nanos := by omega
    exact nanos?_digits 2 (by decide) hlt hback hs
  split
  · have hlt : nanos / 1000 < 1000000 := by omega
    have hback : nanos / 1000 * 1000 = nanos := by omega
    exact nanos?_digits 5 (by decide) hlt hback hs
  · exact nanos?_digits 8 (by decide) h (Nat.mul_one nanos) hs

/-! ## Timestamps -/

/-- The fields of a point of universal time name this point. -/
theorem ofLocal?_zero (t : Timestamp) :
    ofLocal? t.year t.month t.day t.hour t.minute t.second t.nanos 0 = some t := by
  obtain ⟨year, month, day, hour, minute, second, nanos, hvalid⟩ := t
  obtain ⟨-, -, -, hhour, hminute, -⟩ := id hvalid
  have hof : of? year month day hour minute second nanos =
      some ⟨year, month, day, hour, minute, second, nanos, hvalid⟩ := dif_pos hvalid
  have hlow : ¬ (60 * (hour : Int) + minute - 0 < 0) := by omega
  have hhigh : ¬ (1440 ≤ 60 * (hour : Int) + minute - 0) := by omega
  have hhours : (60 * (hour : Int) + minute - 0).toNat / 60 = hour := by omega
  have hminutes : (60 * (hour : Int) + minute - 0).toNat % 60 = minute := by omega
  simp only [ofLocal?, hof, Option.bind_eq_bind, Option.bind_some, if_neg hlow, if_neg hhigh,
    hhours, hminutes]

theorem parse?_text {t : Timestamp} (h : t.Plain) : parse? t.text = some t := by
  obtain ⟨-, hmonth, hday, hhour, hminute, hsecond, hnanos⟩ := t.valid
  have hdays : Calendar.daysInMonth t.year t.month ≤ 31 := by
    unfold Calendar.daysInMonth
    repeat' split
    all_goals omega
  have hyear : (t.year.natAbs : Int) = t.year := Int.natAbs_of_nonneg h.1
  have hyearChars : yearChars t.year = Decimal.padded 4 t.year.natAbs := if_pos h
  have hyearBound : t.year.natAbs < 10000 := by
    have hle := h.2
    omega
  have hyearRead := year?_padded hyearBound
  have hpair : ∀ n < 100, ∀ s, field? 2 (Decimal.padded 2 n ++ s) = some (n, s) :=
    fun n hn s => field?_padded hn s
  have hdash : Text.isBlank '-' = false := by decide
  have hcolon : Text.isBlank ':' = false := by decide
  have hzone : offset? (Text.trimStart ['Z']) = some (0, []) := rfl
  have hend : Text.trimStart [] = [] := rfl
  have hlocal := ofLocal?_zero t
  have hnoDigit : Decimal.NoDigit ['Z'] := by
    intro c hc
    cases hc
    decide
  have hfraction := nanos?_fraction hnanos hnoDigit (by decide)
  simp only [parse?, text, String.toList_ofList, chars, hyearChars, List.append_assoc,
    List.cons_append, hyearRead, after?_cons hdash, after?_cons hcolon,
    hpair t.month (by omega), hpair t.day (by omega), hpair t.hour (by omega),
    hpair t.minute (by omega), hpair t.second (by omega), separator?, hfraction, hzone, hend,
    Option.bind_eq_bind, Option.bind_some, hyear, hlocal, if_true]

end CertRuns.Timestamp
