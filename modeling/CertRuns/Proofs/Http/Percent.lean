import CertRuns.Http.Url
import CertRuns.Number.Double
import Mathlib.Data.List.Infix

/-!
# Reading percent-encoded text

Percent-encoding leaves percent signs as they are. So what is read from an encoded text is what is
read from the text itself, and this is the text again only if no percent sign in it stands in front
of two hexadecimal digits.

* `bytes` : the bytes of a text;
* `byte?`, `escaped?`, `percentDecode` : reading what stands behind percent signs;
* `percentDecode_encodePath` : encoding a segment does not change what is read;
* `IsLiteral`, `IsLiteral.percentDecode`, `isLiteral_of_length` : the texts that are read back.
-/

namespace CertRuns.Url

/-! ## Bytes -/

def bytes (s : List Char) : List UInt8 := s.flatMap String.utf8EncodeChar

theorem toUTF8_eq_bytes (s : String) : s.toUTF8.data.toList = bytes s.toList := by
  rw [String.toUTF8_eq_toByteArray, ← String.utf8Encode_toList]
  unfold List.utf8Encode bytes
  simp

theorem bytes_injective {s t : List Char} (h : bytes s = bytes t) : s = t := by
  have hbytes : (String.ofList s).toByteArray = (String.ofList t).toByteArray := by
    rw [String.toByteArray_ofList, String.toByteArray_ofList]
    unfold List.utf8Encode
    exact congrArg List.toByteArray h
  have htext : String.ofList s = String.ofList t := String.toByteArray_inj.1 hbytes
  rw [← String.toList_ofList (l := s), htext, String.toList_ofList]

theorem length_bytes_cons (c : Char) (s : List Char) :
    (bytes (c :: s)).length = c.utf8Size + (bytes s).length := by
  unfold bytes
  rw [List.flatMap_cons, List.length_append, String.length_utf8EncodeChar]

theorem length_bytes_le {s t : List Char} (hsub : s.Sublist t) :
    (bytes s).length ≤ (bytes t).length := by
  induction hsub with
  | slnil => exact Nat.le_refl _
  | cons c _ ih =>
    rw [length_bytes_cons]
    omega
  | cons_cons c _ ih =>
    rw [length_bytes_cons, length_bytes_cons]
    omega

/-- Leaving characters out leaves bytes out. -/
theorem eq_of_length_bytes {s t : List Char} (hsub : s.Sublist t)
    (h : (bytes t).length ≤ (bytes s).length) : s = t := by
  induction hsub with
  | slnil => rfl
  | cons c hsub _ =>
    have hle := length_bytes_le hsub
    have hpos := c.utf8Size_pos
    rw [length_bytes_cons] at h
    omega
  | cons_cons c _ ih =>
    rw [length_bytes_cons, length_bytes_cons] at h
    rw [ih (by omega)]

/-! ## Percent signs -/

def byte? (a b : Char) : Option UInt8 := do
  let x ← Double.hexDigit? a
  let y ← Double.hexDigit? b
  return UInt8.ofNat (16 * x + y)

/-- The byte that a text starts with, if it starts with a percent sign and two digits. -/
def escaped? : List Char → Option UInt8
  | '%' :: a :: b :: _ => byte? a b
  | _ => none

def percentDecode : List Char → List UInt8
  | '%' :: a :: b :: r =>
    match byte? a b with
    | some x => x :: percentDecode r
    | none => String.utf8EncodeChar '%' ++ percentDecode (a :: b :: r)
  | c :: r => String.utf8EncodeChar c ++ percentDecode r
  | [] => []

theorem escaped?_of_pattern {c : Char} {s : List Char}
    (h : ∀ (a b : Char) (r : List Char), c = '%' → s = a :: b :: r → False) :
    escaped? (c :: s) = none := by
  unfold escaped?
  split
  · rename_i heq
    cases heq
    exact (h _ _ _ rfl rfl).elim
  · rfl

theorem escaped?_cons_of_ne {c : Char} (hc : c ≠ '%') (s : List Char) : escaped? (c :: s) = none :=
  escaped?_of_pattern fun _ _ _ hsign _ => hc hsign

theorem percentDecode_escape {a b : Char} {x : UInt8} (h : byte? a b = some x) (s : List Char) :
    percentDecode ('%' :: a :: b :: s) = x :: percentDecode s := by
  rw [percentDecode]
  simp only [h]

theorem percentDecode_cons {c : Char} {s : List Char} (h : escaped? (c :: s) = none) :
    percentDecode (c :: s) = String.utf8EncodeChar c ++ percentDecode s := by
  rw [percentDecode.eq_def]
  split
  · rename_i heq
    cases heq
    have hnone : byte? _ _ = none := h
    simp only [hnone]
  · rename_i heq
    cases heq
    rfl
  · rename_i heq
    cases heq

/-! ## Encoded text -/

def encoded (s : List Char) : List Char := s.flatMap (encodeChar pathClass)

theorem toList_encodePath (s : List Char) : (encodePath s).toList = encoded s :=
  String.toList_ofList

theorem encoded_cons (c : Char) (s : List Char) :
    encoded (c :: s) = encodeChar pathClass c ++ encoded s := List.flatMap_cons

theorem byte?_hexDigit (b : UInt8) :
    byte? (hexDigit (b.toNat / 16)) (hexDigit (b.toNat % 16)) = some b := by
  have hdigit : ∀ n : Fin 16, Double.hexDigit? (hexDigit n) = some n.val := by decide
  have hlt : b.toNat < 256 := b.toNat_lt
  have hhigh := hdigit ⟨b.toNat / 16, by omega⟩
  have hlow := hdigit ⟨b.toNat % 16, by omega⟩
  unfold byte?
  simp only [hhigh, hlow, Option.bind_eq_bind, Option.bind_some, Option.pure_def,
    Option.some.injEq]
  rw [Nat.div_add_mod, UInt8.ofNat_toNat]

theorem percentDecode_encodeByte (l : List UInt8) (s : List Char) :
    percentDecode (l.flatMap encodeByte ++ s) = l ++ percentDecode s := by
  induction l with
  | nil => rfl
  | cons b l ih =>
    show percentDecode ('%' :: hexDigit (b.toNat / 16) :: hexDigit (b.toNat % 16) ::
      (l.flatMap encodeByte ++ s)) = b :: (l ++ percentDecode s)
    rw [percentDecode_escape (byte?_hexDigit b), ih]

/-- A character is kept, or it is no digit and percent signs and bytes stand in its place. -/
theorem encodeChar_cases (c : Char) :
    encodeChar pathClass c = [c] ∨
      Double.hexDigit? c = none ∧ c ≠ '%' ∧
        encodeChar pathClass c = (String.utf8EncodeChar c).flatMap encodeByte := by
  have hbytes : (String.singleton c).toUTF8.data.toList = String.utf8EncodeChar c := by
    rw [toUTF8_eq_bytes, String.toList_singleton]
    exact List.flatMap_singleton ..
  unfold encodeChar
  split
  · rename_i hc
    rw [hbytes]
    refine .inr ⟨?_, ?_, rfl⟩
    · obtain hc | hc | hc := hc
      · unfold Double.hexDigit?
        rw [if_neg (by omega), if_neg (by omega), if_neg (by omega)]
      · unfold Double.hexDigit?
        rw [if_neg (by omega), if_neg (by omega), if_neg (by omega)]
      · have hclass : pathClass.all fun c => (Double.hexDigit? c).isNone := by decide
        exact Option.isNone_iff_eq_none.1 (List.all_eq_true.1 hclass c hc)
    · rintro rfl
      revert hc
      decide
  · exact .inl rfl

theorem encodeChar_of_digit {c : Char} (h : Double.hexDigit? c ≠ none) :
    encodeChar pathClass c = [c] := by
  obtain hkept | ⟨hnone, -⟩ := encodeChar_cases c
  · exact hkept
  · exact absurd hnone h

/-- Encoding neither makes nor unmakes a digit at the start of a text. -/
theorem encoded_head (c : Char) (s : List Char) :
    ∃ a t, encoded (c :: s) = a :: t ∧ Double.hexDigit? a = Double.hexDigit? c := by
  rw [encoded_cons]
  obtain hkept | ⟨hnone, -, henc⟩ := encodeChar_cases c
  · exact ⟨c, encoded s, by rw [hkept]; rfl, rfl⟩
  · obtain ⟨b, l, hl⟩ := List.exists_cons_of_ne_nil (String.utf8EncodeChar_ne_nil (c := c))
    rw [henc, hl, hnone]
    exact ⟨'%', _, rfl, by decide⟩

theorem escaped?_of_not_digit {a : Char} (h : Double.hexDigit? a = none) (s : List Char) :
    escaped? ('%' :: a :: s) = none := by
  cases s with
  | nil => rfl
  | cons b s =>
    show byte? a b = none
    unfold byte?
    rw [h]
    rfl

theorem escaped?_of_not_second {a b : Char} (h : Double.hexDigit? b = none) (s : List Char) :
    escaped? ('%' :: a :: b :: s) = none := by
  show byte? a b = none
  unfold byte?
  rw [h]
  cases Double.hexDigit? a <;> rfl

/-- What stands behind a percent sign is the same byte, or no byte, after encoding. -/
theorem escaped?_encoded (s : List Char) : escaped? ('%' :: encoded s) = escaped? ('%' :: s) := by
  cases s with
  | nil => rfl
  | cons a s =>
    by_cases ha : Double.hexDigit? a = none
    · obtain ⟨a', t, henc, hdigit⟩ := encoded_head a s
      rw [henc, escaped?_of_not_digit ha, escaped?_of_not_digit (hdigit.trans ha)]
    · rw [encoded_cons, encodeChar_of_digit ha, List.singleton_append]
      cases s with
      | nil => rfl
      | cons b s =>
        by_cases hb : Double.hexDigit? b = none
        · obtain ⟨b', t, henc, hdigit⟩ := encoded_head b s
          rw [henc, escaped?_of_not_second hb, escaped?_of_not_second (hdigit.trans hb)]
        · rw [encoded_cons, encodeChar_of_digit hb]
          rfl

theorem byte?_digits {a b : Char} {x : UInt8} (h : byte? a b = some x) :
    Double.hexDigit? a ≠ none ∧ Double.hexDigit? b ≠ none := by
  constructor
  · intro ha
    have hnone := escaped?_of_not_digit ha [b]
    exact absurd (h.symm.trans hnone) (by simp)
  · intro hb
    have hnone := escaped?_of_not_second (a := a) hb []
    exact absurd (h.symm.trans hnone) (by simp)

theorem percentDecode_encoded_cons {c : Char} {s : List Char} (h : escaped? (c :: s) = none) :
    percentDecode (encoded (c :: s)) = String.utf8EncodeChar c ++ percentDecode (encoded s) := by
  rw [encoded_cons]
  obtain hkept | ⟨-, -, henc⟩ := encodeChar_cases c
  · rw [hkept, List.singleton_append]
    apply percentDecode_cons
    by_cases hc : c = '%'
    · subst hc
      rw [escaped?_encoded, h]
    · exact escaped?_cons_of_ne hc _
  · rw [henc, percentDecode_encodeByte]

/-- Encoding a text does not change what is read from it. -/
theorem percentDecode_encoded (s : List Char) : percentDecode (encoded s) = percentDecode s := by
  fun_induction percentDecode s with
  | case1 a b s x hx ih =>
    obtain ⟨ha, hb⟩ := byte?_digits hx
    have henc : encoded ('%' :: a :: b :: s) = '%' :: a :: b :: encoded s := by
      rw [encoded_cons, encoded_cons, encoded_cons, encodeChar_of_digit ha, encodeChar_of_digit hb]
      rfl
    rw [henc, percentDecode_escape hx, ih]
  | case2 a b s hx ih =>
    rw [percentDecode_encoded_cons (by exact hx), ih]
  | case3 c s hpattern ih =>
    rw [percentDecode_encoded_cons (escaped?_of_pattern hpattern), ih]
  | case4 => rfl

theorem percentDecode_encodePath (s : List Char) :
    percentDecode (encodePath s).toList = percentDecode s := by
  rw [toList_encodePath, percentDecode_encoded]

/-! ## Texts that are read back -/

def IsLiteral (s : List Char) : Prop := ∀ t ∈ s.tails, escaped? t = none

instance (s : List Char) : Decidable (IsLiteral s) :=
  List.decidableBAll (fun t => escaped? t = none) s.tails

theorem isLiteral_nil : IsLiteral [] := by decide

theorem isLiteral_cons {c : Char} {s : List Char} :
    IsLiteral (c :: s) ↔ escaped? (c :: s) = none ∧ IsLiteral s := by
  unfold IsLiteral
  rw [List.tails_cons, List.forall_mem_cons]

theorem IsLiteral.percentDecode {s : List Char} (h : IsLiteral s) :
    percentDecode s = bytes s := by
  induction s with
  | nil => rfl
  | cons c s ih =>
    obtain ⟨hnone, hs⟩ := isLiteral_cons.1 h
    rw [percentDecode_cons hnone, ih hs]
    exact List.flatMap_cons.symm

/-- Where a percent sign is read, three characters become one byte. -/
theorem length_percentDecode (s : List Char) :
    (percentDecode s).length ≤ (bytes s).length ∧
      ((bytes s).length ≤ (percentDecode s).length → IsLiteral s) := by
  fun_induction percentDecode s with
  | case1 a b s x hx ih =>
    have hpos := a.utf8Size_pos
    have hpos' := b.utf8Size_pos
    have hsign : '%'.utf8Size = 1 := by decide
    rw [length_bytes_cons, length_bytes_cons, length_bytes_cons, List.length_cons]
    exact ⟨by omega, fun h => by omega⟩
  | case2 a b s hx ih =>
    rw [length_bytes_cons, List.length_append, String.length_utf8EncodeChar]
    exact ⟨by omega, fun h => isLiteral_cons.2 ⟨hx, ih.2 (by omega)⟩⟩
  | case3 c s hpattern ih =>
    rw [length_bytes_cons, List.length_append, String.length_utf8EncodeChar]
    exact ⟨by omega, fun h => isLiteral_cons.2 ⟨escaped?_of_pattern hpattern, ih.2 (by omega)⟩⟩
  | case4 => exact ⟨Nat.le_refl _, fun _ => isLiteral_nil⟩

theorem isLiteral_of_length {s : List Char} (h : (bytes s).length ≤ (percentDecode s).length) :
    IsLiteral s := (length_percentDecode s).2 h

end CertRuns.Url
