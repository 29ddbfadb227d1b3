import CertRuns.Number.Decimal
import CertRuns.Number.Power

/-!
# Reading decimal numerals that were written

* `digits_eq_cons` : only zero starts with a zero;
* `value_zeros_append`, `value_append_zeros` : zeros before and after digits;
* `digits_value` : digits without a leading zero are those of their number;
* `padded_eq` : the digits of `padded`, with their number and their value;
* `spanDigits_append` : digits are read up to the first character that is none;
* `spanDigits_eq`, `natural?_eq_some_iff`, `unsigned?_eq_some_iff` : what a number is read from.
-/

namespace CertRuns.Decimal

/-! ## Digits -/

theorem chars_eq_map (n : Nat) : chars n = (digits n).map Digit.char := rfl

theorem digits_of_lt {n : Nat} (h : n < 10) : digits n = [⟨n, h⟩] := by
  rw [digits, dif_pos h]

theorem digits_of_ge {n : Nat} (h : 10 ≤ n) :
    digits n = digits (n / 10) ++ [⟨n % 10, Nat.mod_lt _ (by decide)⟩] := by
  rw [digits, dif_neg (by omega)]

theorem digits_eq_cons {n : Nat} (h : n ≠ 0) :
    ∃ (d : Digit) (ds : List Digit), digits n = d :: ds ∧ d ≠ 0 := by
  induction n using Nat.strongRecOn with
  | ind n ih =>
    by_cases hn : n < 10
    · refine ⟨⟨n, hn⟩, [], digits_of_lt hn, fun hd => h ?_⟩
      exact congrArg Fin.val hd
    · obtain ⟨d, ds, hds, hd⟩ := ih (n / 10) (by omega) (by omega)
      refine ⟨d, ds ++ [⟨n % 10, Nat.mod_lt _ (by decide)⟩], ?_, hd⟩
      rw [digits_of_ge (by omega), hds, List.cons_append]

theorem length_digits_le {n width : Nat} (h : n < tenTo (width + 1)) :
    (digits n).length ≤ width + 1 := by
  induction width generalizing n with
  | zero =>
    have hn : n < 10 := h
    simp [digits_of_lt hn]
  | succ width ih =>
    by_cases hn : n < 10
    · simp [digits_of_lt hn]
    · have hlt : n / 10 < tenTo (width + 1) := by
        rw [Nat.div_lt_iff_lt_mul (by decide), ← tenTo_succ]
        exact h
      rw [digits_of_ge (by omega), List.length_append, List.length_singleton]
      exact Nat.succ_le_succ (ih hlt)

theorem char_ne_sign (d : Digit) : d.char ≠ '+' ∧ d.char ≠ '-' := by
  revert d
  decide

/-! ## Values -/

theorem value_append_append (ds es : List Digit) :
    value (ds ++ es) = es.foldl (fun n d => 10 * n + d.val) (value ds) := by
  simp [value]

theorem value_zeros_append (k : Nat) (ds : List Digit) :
    value (List.replicate k 0 ++ ds) = value ds := by
  have hzeros : value (List.replicate k 0) = 0 := by
    induction k with
    | zero => rfl
    | succ k ih => rw [List.replicate_succ', value_append, ih]; rfl
  rw [value_append_append, hzeros, value]

theorem value_append_zeros (ds : List Digit) (k : Nat) :
    value (ds ++ List.replicate k 0) = value ds * tenTo k := by
  induction k with
  | zero => simp [tenTo]
  | succ k ih =>
    rw [List.replicate_succ', ← List.append_assoc, value_append, ih, Fin.val_zero, Nat.add_zero,
      tenTo_succ, Nat.mul_comm 10, Nat.mul_assoc]

theorem digits_foldl {n : Nat} (h : n ≠ 0) (ds : List Digit) :
    digits (ds.foldl (fun n d => 10 * n + d.val) n) = digits n ++ ds := by
  induction ds generalizing n with
  | nil => simp
  | cons d ds ih =>
    have hdiv : (10 * n + d.val) / 10 = n := by omega
    have hmod : (10 * n + d.val) % 10 = d.val := by omega
    rw [List.foldl_cons, ih (by omega), digits_of_ge (by omega), hdiv]
    simp [hmod]

theorem digits_value {d : Digit} (hd : d ≠ 0) (ds : List Digit) :
    digits (value (d :: ds)) = d :: ds := by
  have hpos : 10 * 0 + d.val ≠ 0 := fun hzero => hd (Fin.ext (by simpa using hzero))
  rw [value, List.foldl_cons, digits_foldl hpos]
  simp [digits_of_lt d.isLt]

theorem padded_eq {width n : Nat} (h : n < tenTo (width + 1)) :
    ∃ (d : Digit) (ds : List Digit), padded (width + 1) n = (d :: ds).map Digit.char ∧
      (d :: ds).length = width + 1 ∧ value (d :: ds) = n := by
  have hle := length_digits_le h
  have hpadded : padded (width + 1) n =
      (List.replicate (width + 1 - (digits n).length) 0 ++ digits n).map Digit.char := by
    have hzero : Digit.char 0 = '0' := rfl
    simp [padded, chars_eq_map, hzero]
  have hlength : (List.replicate (width + 1 - (digits n).length) 0 ++ digits n).length =
      width + 1 := by
    rw [List.length_append, List.length_replicate]
    omega
  have hvalue := value_zeros_append (width + 1 - (digits n).length) (digits n)
  rw [value_digits] at hvalue
  generalize List.replicate (width + 1 - (digits n).length) 0 ++ digits n = ds
    at hpadded hlength hvalue
  cases ds with
  | nil => cases hlength
  | cons d ds => exact ⟨d, ds, hpadded, hlength, hvalue⟩

/-! ## Reading -/

/-- Does a text not go on with a digit? -/
def NoDigit (s : List Char) : Prop := ∀ c ∈ s.head?, digit? c = none

theorem spanDigits_append (ds : List Digit) {rest : List Char} (h : NoDigit rest) :
    spanDigits (ds.map Digit.char ++ rest) = (ds, rest) := by
  induction ds with
  | nil =>
    cases rest with
    | nil => rfl
    | cons c rest =>
      rw [List.map_nil, List.nil_append, spanDigits, h c rfl]
  | cons d ds ih =>
    rw [List.map_cons, List.cons_append, spanDigits, digit?_char, ih]

theorem spanDigits_map (ds : List Digit) : spanDigits (ds.map Digit.char) = (ds, []) := by
  have hnone : NoDigit [] := by simp [NoDigit]
  have h := spanDigits_append ds hnone
  rwa [List.append_nil] at h

/-! ## What was read -/

theorem char_of_digit? {c : Char} {d : Digit} (h : digit? c = some d) : d.char = c := by
  unfold digit? at h
  split at h
  · rename_i hc
    cases h
    have hsum : 48 + (c.toNat - 48) = c.toNat := by omega
    rw [Digit.char, hsum, Char.ofNat_toNat]
  · cases h

theorem spanDigits_eq {s rest : List Char} {ds : List Digit} (h : spanDigits s = (ds, rest)) :
    s = ds.map Digit.char ++ rest := by
  fun_induction spanDigits s generalizing ds rest with
  | case1 =>
    cases h
    rfl
  | case2 c r d hd es rest' hr ih =>
    cases h
    rw [List.map_cons, List.cons_append, ← ih hr, char_of_digit? hd]
  | case3 c r =>
    cases h
    rfl

theorem natural?_eq_some_iff {s : List Char} {n : Nat} :
    natural? s = some n ↔ ∃ ds, ds ≠ [] ∧ s = ds.map Digit.char ∧ value ds = n := by
  constructor
  · intro h
    unfold natural? at h
    split at h
    · cases h
    · rename_i ds hne hspan
      cases h
      refine ⟨ds, fun hnil => hne hnil, ?_, rfl⟩
      rw [spanDigits_eq hspan, List.append_nil]
    · cases h
  · rintro ⟨ds, hne, rfl, rfl⟩
    cases ds with
    | nil => exact absurd rfl hne
    | cons d ds => rw [natural?, spanDigits_map]

theorem unsigned?_eq_some_iff {bound : Nat} {s : List Char} {n : Nat} :
    unsigned? bound s = some n ↔ n < bound ∧ ∃ sign ds, (sign = [] ∨ sign = ['+']) ∧ ds ≠ [] ∧
      s = sign ++ ds.map Digit.char ∧ value ds = n := by
  have hsigned (r : List Char) : unsigned? bound ('+' :: r) = (natural? r).filter (· < bound) := rfl
  by_cases hplus : ∃ r, s = '+' :: r
  · obtain ⟨r, rfl⟩ := hplus
    rw [hsigned, Option.filter_eq_some_iff, natural?_eq_some_iff, decide_eq_true_eq, and_comm]
    refine and_congr_right fun _ => ⟨?_, ?_⟩
    · rintro ⟨ds, hne, rfl, hv⟩
      exact ⟨['+'], ds, .inr rfl, hne, rfl, hv⟩
    · rintro ⟨sign, ds, rfl | rfl, hne, hs, hv⟩
      · cases ds with
        | nil => exact absurd rfl hne
        | cons d ds => exact absurd (List.cons.inj hs).1.symm (char_ne_sign d).1
      · exact ⟨ds, hne, (List.cons.inj hs).2, hv⟩
  · have hplain : unsigned? bound s = (natural? s).filter (· < bound) := by
      unfold unsigned?
      split
      · exact absurd ⟨_, rfl⟩ hplus
      · rfl
    rw [hplain, Option.filter_eq_some_iff, natural?_eq_some_iff, decide_eq_true_eq, and_comm]
    refine and_congr_right fun _ => ⟨?_, ?_⟩
    · rintro ⟨ds, hne, rfl, hv⟩
      exact ⟨[], ds, .inl rfl, hne, rfl, hv⟩
    · rintro ⟨sign, ds, rfl | rfl, hne, hs, hv⟩
      · exact ⟨ds, hne, hs, hv⟩
      · exact absurd ⟨_, hs⟩ hplus

end CertRuns.Decimal
