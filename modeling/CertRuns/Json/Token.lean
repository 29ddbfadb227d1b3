import CertRuns.Json.Basic
import CertRuns.Text.Utf8

/-!
# The tokens of a JSON document

* `Token` : punctuation, names, numbers and strings;
* `Quoted.scan`, `Quoted.assemble` : a string's parts up to its closing quote, and their text.
  A code unit of a surrogate pair without its partner, like a stray byte, leaves no text;
* `numeral?` : a number with its sign already read;
* `Token.read?` : the token at the start of a document; `tokens` : all of them.
-/

namespace CertRuns.Json

open Decimal (Digit)
open Text (Symbol)

/-- The smallest parts of a document. -/
inductive Token where
  | openArray
  | closeArray
  | openObject
  | closeObject
  | comma
  | colon
  | null
  | bool (b : Bool)
  | number (n : Numeral)
  | string (s : Option String)
  deriving DecidableEq, Repr

/-! ## Strings -/

namespace Quoted

/-- One part of a quoted string: a character, an escaped code unit, or a stray byte. -/
inductive Part where
  | char (c : Char)
  | unit (n : Nat)
  | stray
  deriving DecidableEq, Repr

def hexDigit? : Symbol → Option Nat
  | none => none
  | some c =>
    let n := c.toNat
    if 48 ≤ n ∧ n < 58 then some (n - 48)
    else if 97 ≤ n ∧ n < 103 then some (n - 87)
    else if 65 ≤ n ∧ n < 71 then some (n - 55)
    else none

def unit? (a b c d : Symbol) : Option Nat := do
  let a ← hexDigit? a
  let b ← hexDigit? b
  let c ← hexDigit? c
  let d ← hexDigit? d
  return ((a * 16 + b) * 16 + c) * 16 + d

/-- The character that a backslash and `c` stand for. -/
def escape? (c : Char) : Option Char :=
  match c with
  | '"' => some '"'
  | '\\' => some '\\'
  | '/' => some '/'
  | 'b' => some '\x08'
  | 'f' => some '\x0c'
  | 'n' => some '\n'
  | 'r' => some '\r'
  | 't' => some '\t'
  | _ => none

def scan : List Symbol → Option (List Part × List Symbol)
  | some '"' :: r => some ([], r)
  | some '\\' :: some 'u' :: a :: b :: c :: d :: r => do
    let n ← unit? a b c d
    let (ps, rest) ← scan r
    return (.unit n :: ps, rest)
  | some '\\' :: some e :: r => do
    let c ← escape? e
    let (ps, rest) ← scan r
    return (.char c :: ps, rest)
  | some c :: r =>
    if c.toNat < 32 ∨ c = '\\' then none
    else do
      let (ps, rest) ← scan r
      return (.char c :: ps, rest)
  | none :: r => do
    let (ps, rest) ← scan r
    return (.stray :: ps, rest)
  | [] => none

/-- Is the code unit the first of a surrogate pair? -/
def isHigh (n : Nat) : Bool := 0xD800 ≤ n && n < 0xDC00

/-- Is the code unit the second of a surrogate pair? -/
def isLow (n : Nat) : Bool := 0xDC00 ≤ n && n < 0xE000

def assemble : List Part → Option (List Char)
  | [] => some []
  | .char c :: r => (assemble r).map (c :: ·)
  | .stray :: _ => none
  | .unit n :: .unit m :: r =>
    if isHigh n then
      if isLow m then
        (assemble r).map (Char.ofNat (0x10000 + (n - 0xD800) * 0x400 + (m - 0xDC00)) :: ·)
      else none
    else if isLow n then none
    else (assemble (.unit m :: r)).map (Char.ofNat n :: ·)
  | .unit n :: r =>
    if isHigh n || isLow n then none else (assemble r).map (Char.ofNat n :: ·)

end Quoted

/-! ## Numbers -/

/-- The digits at the start of a document, and the rest. -/
def digitRun : List Symbol → List Digit × List Symbol
  | some c :: r =>
    match Decimal.digit? c with
    | some d => let (ds, rest) := digitRun r; (d :: ds, rest)
    | none => ([], some c :: r)
  | s => ([], s)

/-- The digits after a point, if a point comes next; a point needs a digit after it. -/
def fraction? : List Symbol → Option (List Digit × List Symbol)
  | some '.' :: r =>
    match digitRun r with
    | ([], _) => none
    | (ds, rest) => some (ds, rest)
  | s => some ([], s)

def exponentDigits? (negative : Bool) (s : List Symbol) : Option (Option Int × List Symbol) :=
  match digitRun s with
  | ([], _) => none
  | (ds, rest) =>
    let n : Int := Decimal.value ds
    some (some (if negative then -n else n), rest)

/-- The exponent, if its mark comes next; a mark needs a digit after its optional sign. -/
def exponent? : List Symbol → Option (Option Int × List Symbol)
  | some c :: r =>
    if c = 'e' ∨ c = 'E' then
      match r with
      | some '+' :: r => exponentDigits? false r
      | some '-' :: r => exponentDigits? true r
      | r => exponentDigits? false r
    else some (none, some c :: r)
  | s => some (none, s)

/-- A number's fraction and exponent after its whole part. -/
def numeralTail? (negative : Bool) (whole : Nat) (s : List Symbol) :
    Option (Numeral × List Symbol) := do
  let (ds, s) ← fraction? s
  let (e, s) ← exponent? s
  return (⟨negative, whole, ds, e⟩, s)

/-- The number at the start of a document, its sign already read. A zero ends the whole part. -/
def numeral? (negative : Bool) : List Symbol → Option (Numeral × List Symbol)
  | some '0' :: r => numeralTail? negative 0 r
  | s =>
    match digitRun s with
    | ([], _) => none
    | (ds, rest) => numeralTail? negative (Decimal.value ds) rest

/-! ## Tokens -/

/-- Is the symbol one of the four blanks between tokens? -/
def isSpace (s : Symbol) : Bool :=
  s == some ' ' || s == some '\n' || s == some '\r' || s == some '\t'

def Token.read? : List Symbol → Option (Token × List Symbol)
  | some '[' :: r => some (.openArray, r)
  | some ']' :: r => some (.closeArray, r)
  | some '\x7b' :: r => some (.openObject, r)
  | some '\x7d' :: r => some (.closeObject, r)
  | some ',' :: r => some (.comma, r)
  | some ':' :: r => some (.colon, r)
  | some 'n' :: some 'u' :: some 'l' :: some 'l' :: r => some (.null, r)
  | some 't' :: some 'r' :: some 'u' :: some 'e' :: r => some (.bool true, r)
  | some 'f' :: some 'a' :: some 'l' :: some 's' :: some 'e' :: r => some (.bool false, r)
  | some '"' :: r => do
    let (parts, rest) ← Quoted.scan r
    return (.string ((Quoted.assemble parts).map String.ofList), rest)
  | some '-' :: r => do
    let (n, rest) ← numeral? true r
    return (.number n, rest)
  | s => do
    let (n, rest) ← numeral? false s
    return (.number n, rest)

/-! ## What is left gets shorter -/

theorem Quoted.length_scan {s : List Symbol} {ps : List Part} {rest : List Symbol}
    (h : scan s = some (ps, rest)) : rest.length < s.length := by
  fun_induction scan s generalizing ps rest with
  | case1 r => simp at h; simp [← h.2]
  | case2 a b c d r ih =>
    simp only [Option.bind_eq_bind, Option.bind_eq_some_iff, Option.pure_def, Option.some.injEq,
      Prod.mk.injEq] at h
    obtain ⟨n, -, ⟨qs, rest'⟩, hs, -, rfl⟩ := h
    have := ih hs
    simp only [List.length_cons]
    omega
  | case3 e r _ ih =>
    simp only [Option.bind_eq_bind, Option.bind_eq_some_iff, Option.pure_def, Option.some.injEq,
      Prod.mk.injEq] at h
    obtain ⟨n, -, ⟨qs, rest'⟩, hs, -, rfl⟩ := h
    have := ih hs
    simp only [List.length_cons]
    omega
  | case4 => simp at h
  | case5 c r _ _ _ _ ih =>
    simp only [Option.bind_eq_bind, Option.bind_eq_some_iff, Option.pure_def, Option.some.injEq,
      Prod.mk.injEq] at h
    obtain ⟨⟨qs, rest'⟩, hs, -, rfl⟩ := h
    have := ih hs
    simp only [List.length_cons]
    omega
  | case6 r ih =>
    simp only [Option.bind_eq_bind, Option.bind_eq_some_iff, Option.pure_def, Option.some.injEq,
      Prod.mk.injEq] at h
    obtain ⟨⟨qs, rest'⟩, hs, -, rfl⟩ := h
    have := ih hs
    simp only [List.length_cons]
    omega
  | case7 => simp at h

theorem length_digitRun (s : List Symbol) :
    (digitRun s).2.length + (digitRun s).1.length = s.length := by
  fun_induction digitRun s with
  | case1 c r d h ds rest hr ih =>
    rw [hr] at ih
    simp only [List.length_cons] at ih ⊢
    omega
  | case2 => simp
  | case3 => simp

theorem length_fraction? {s : List Symbol} {ds : List Digit} {rest : List Symbol}
    (h : fraction? s = some (ds, rest)) : rest.length ≤ s.length := by
  unfold fraction? at h
  split at h
  · rename_i r
    have := length_digitRun r
    split at h
    · simp at h
    · rename_i es rest' he
      simp only [Option.some.injEq, Prod.mk.injEq] at h
      simp only [he] at this
      simp only [List.length_cons, ← h.2]
      omega
  · simp only [Option.some.injEq, Prod.mk.injEq] at h
    simp [h.2]

theorem length_exponentDigits? {b : Bool} {s : List Symbol} {e : Option Int}
    {rest : List Symbol} (h : exponentDigits? b s = some (e, rest)) :
    rest.length ≤ s.length := by
  unfold exponentDigits? at h
  have := length_digitRun s
  split at h
  · simp at h
  · rename_i ds rest' hd
    simp only [Option.some.injEq, Prod.mk.injEq] at h
    simp only [hd] at this
    simp only [← h.2]
    omega

theorem length_exponent? {s : List Symbol} {e : Option Int} {rest : List Symbol}
    (h : exponent? s = some (e, rest)) : rest.length ≤ s.length := by
  unfold exponent? at h
  split at h
  · split at h
    · split at h <;>
        · have := length_exponentDigits? h
          simp only [List.length_cons] at this ⊢
          omega
    · simp only [Option.some.injEq, Prod.mk.injEq] at h
      simp [← h.2]
  · simp only [Option.some.injEq, Prod.mk.injEq] at h
    simp [← h.2]

theorem length_numeralTail? {b : Bool} {w : Nat} {s : List Symbol} {n : Numeral}
    {rest : List Symbol} (h : numeralTail? b w s = some (n, rest)) :
    rest.length ≤ s.length := by
  simp only [numeralTail?, Option.bind_eq_bind, Option.bind_eq_some_iff, Option.pure_def,
    Option.some.injEq, Prod.mk.injEq] at h
  obtain ⟨⟨ds, s₁⟩, h₁, ⟨e, s₂⟩, h₂, -, rfl⟩ := h
  exact Nat.le_trans (length_exponent? h₂) (length_fraction? h₁)

theorem length_numeral? {b : Bool} {s : List Symbol} {n : Numeral} {rest : List Symbol}
    (h : numeral? b s = some (n, rest)) : rest.length < s.length := by
  unfold numeral? at h
  split at h
  · have := length_numeralTail? h
    simp only [List.length_cons]
    omega
  · have hd := length_digitRun s
    split at h
    · simp at h
    · rename_i ds rest' hne hr
      have hle := length_numeralTail? h
      have hpos : 0 < ds.length :=
        List.length_pos_iff.2 hne
      simp only [hr] at hd
      omega

theorem Token.length_read? {s : List Symbol} {t : Token} {rest : List Symbol}
    (h : Token.read? s = some (t, rest)) : rest.length < s.length := by
  unfold Token.read? at h
  split at h
  case h_10 r =>
    simp only [Option.bind_eq_bind, Option.bind_eq_some_iff, Option.pure_def, Option.some.injEq,
      Prod.mk.injEq] at h
    obtain ⟨⟨ps, rest'⟩, hs, -, rfl⟩ := h
    have := Quoted.length_scan hs
    simp only [List.length_cons]
    omega
  case h_11 r =>
    simp only [Option.bind_eq_bind, Option.bind_eq_some_iff, Option.pure_def, Option.some.injEq,
      Prod.mk.injEq] at h
    obtain ⟨⟨ps, rest'⟩, hs, -, rfl⟩ := h
    have := length_numeral? hs
    simp only [List.length_cons]
    omega
  case h_12 r =>
    simp only [Option.bind_eq_bind, Option.bind_eq_some_iff, Option.pure_def, Option.some.injEq,
      Prod.mk.injEq] at h
    obtain ⟨⟨ps, rest'⟩, hs, -, rfl⟩ := h
    exact length_numeral? hs
  all_goals
    simp only [Option.some.injEq, Prod.mk.injEq] at h
    simp only [← h.2, List.length_cons]
    omega

/-- The tokens of a document behind those already found; blanks between them are skipped. -/
def tokensFrom (found : List Token) (s : List Symbol) : Option (List Token) :=
  match s with
  | [] => some found.reverse
  | c :: r =>
    if isSpace c then tokensFrom found r
    else
      match _h : Token.read? (c :: r) with
      | none => none
      | some (t, rest) => tokensFrom (t :: found) rest
  termination_by s.length
  decreasing_by
    · simp
    · exact Token.length_read? _h

def tokens (s : List Symbol) : Option (List Token) := tokensFrom [] s

end CertRuns.Json
