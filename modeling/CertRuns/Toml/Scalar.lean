import CertRuns.Number.Double
import CertRuns.Number.Scientific

/-!
# TOML keys, texts, numbers and dates

Each reader takes the value at the start of a document and hands back the rest.

* `isContent`, `newline?`, `blanks`, `comment`, `lineEnd?` : the characters between values;
* `basicText?`, `literalText?`, `longBasicText?`, `longLiteralText?` : the four kinds of texts;
* `moment?` : dates and times; `number?` : integers of 64 bits and floats.
-/

namespace CertRuns.Toml

open Decimal (Digit)

/-! ## Between values -/

/-- May the character stand in texts and comments? All but control characters may, and tabs. -/
def isContent (c : Char) : Bool := c == '\t' || (32 ≤ c.toNat && c.toNat != 127)

def newline? : List Char → Option (List Char)
  | '\n' :: r => some r
  | '\r' :: '\n' :: r => some r
  | _ => none

def isSpace (c : Char) : Bool := c == ' ' || c == '\t'

def blanks (s : List Char) : List Char := s.dropWhile isSpace

def comment : List Char → List Char
  | '#' :: r => r.dropWhile isContent
  | s => s

def lineEnd? (s : List Char) : Option (List Char) :=
  match comment (blanks s) with
  | [] => some []
  | r => newline? r

/-! ## Texts -/

def hexNumber? (ds : List Char) : Option Nat :=
  ds.foldlM (fun n c => (Double.hexDigit? c).map (n * 16 + ·)) 0

def namedChar? (width : Nat) (s : List Char) : Option (Char × List Char) := do
  let n ← hexNumber? (s.take width)
  if (s.take width).length = width ∧ n.isValidChar then some (Char.ofNat n, s.drop width) else none

/-- The character that a backslash and what follows it stand for. -/
def escape? : List Char → Option (Char × List Char)
  | 'b' :: r => some ('\x08', r)
  | 't' :: r => some ('\t', r)
  | 'n' :: r => some ('\n', r)
  | 'f' :: r => some ('\x0c', r)
  | 'r' :: r => some ('\r', r)
  | '"' :: r => some ('"', r)
  | '\\' :: r => some ('\\', r)
  | 'u' :: r => namedChar? 4 r
  | 'U' :: r => namedChar? 8 r
  | _ => none

def basicText? : (fuel : Nat) → List Char → Option (List Char × List Char)
  | 0, _ => none
  | _, '"' :: r => some ([], r)
  | fuel + 1, '\\' :: r => do
    let (c, r) ← escape? r
    let (cs, r) ← basicText? fuel r
    return (c :: cs, r)
  | fuel + 1, c :: r =>
    if isContent c then do
      let (cs, r) ← basicText? fuel r
      return (c :: cs, r)
    else none
  | _, [] => none

/-- A text up to the next single quote, in which a backslash stands for itself. -/
def literalText? (s : List Char) : Option (List Char × List Char) :=
  let body := s.takeWhile fun c => isContent c && c != '\''
  match s.drop body.length with
  | '\'' :: r => some (body, r)
  | _ => none

/-- What follows a backslash at the end of a line: the next character that is not blank. -/
def foldedLine? (s : List Char) : Option (List Char) := do
  let r ← newline? (blanks s)
  let rec skip : Nat → List Char → List Char
    | 0, r => r
    | n + 1, r =>
      match newline? (blanks r) with
      | some r => skip n r
      | none => blanks r
  return skip r.length r

/-- The quotes at the end of a long text: three end it, up to two more belong to it. -/
def closingQuotes? (quote : Char) (s : List Char) : Option (List Char × List Char) :=
  let n := (s.takeWhile (· == quote)).length
  if n < 3 then none
  else
    let extra := min (n - 3) 2
    some (List.replicate extra quote, s.drop (extra + 3))

def longBasicText? : (fuel : Nat) → List Char → Option (List Char × List Char)
  | 0, _ => none
  | fuel + 1, s =>
    match closingQuotes? '"' s with
    | some done => some done
    | none => do
      let (cs, r) ← match s with
        | '\\' :: r =>
          match foldedLine? r with
          | some r => some ([], r)
          | none => (escape? r).map fun (c, r) => ([c], r)
        | c :: r =>
          match newline? s with
          | some r => some (['\n'], r)
          | none => if isContent c then some ([c], r) else none
        | [] => none
      let (rest, r) ← longBasicText? fuel r
      return (cs ++ rest, r)

def longLiteralText? : (fuel : Nat) → List Char → Option (List Char × List Char)
  | 0, _ => none
  | fuel + 1, s =>
    match closingQuotes? '\'' s with
    | some done => some done
    | none => do
      let (c, r) ← match s with
        | c :: r =>
          match newline? s with
          | some r => some ('\n', r)
          | none => if isContent c then some (c, r) else none
        | [] => none
      let (rest, r) ← longLiteralText? fuel r
      return (c :: rest, r)

/-- The document after a line break, if there is one. -/
def skipNewline (s : List Char) : List Char := (newline? s).getD s

def text? : List Char → Option (String × List Char)
  | '"' :: '"' :: '"' :: r =>
    (longBasicText? (r.length + 1) (skipNewline r)).map fun (cs, r) => (String.ofList cs, r)
  | '"' :: r => (basicText? (r.length + 1) r).map fun (cs, r) => (String.ofList cs, r)
  | '\'' :: '\'' :: '\'' :: r =>
    (longLiteralText? (r.length + 1) (skipNewline r)).map fun (cs, r) => (String.ofList cs, r)
  | '\'' :: r => (literalText? r).map fun (cs, r) => (String.ofList cs, r)
  | _ => none

/-! ## Dates and times -/

/-- A number of exactly `width` digits from `low` to `high`. -/
def fixed? (width low high : Nat) (s : List Char) : Option (Nat × List Char) :=
  match Decimal.spanDigits (s.take width) with
  | (ds, []) =>
    let n := Decimal.value ds
    if ds.length = width ∧ low ≤ n ∧ n ≤ high then some (n, s.drop width) else none
  | _ => none

def after? (c : Char) : List Char → Option (List Char)
  | d :: r => if d = c then some r else none
  | [] => none

def monthLength (year month : Nat) : Nat :=
  if month = 2 then if year % 4 = 0 ∧ (year % 100 ≠ 0 ∨ year % 400 = 0) then 29 else 28
  else if month ∈ [4, 6, 9, 11] then 30
  else 31

/-- What follows a date; `none` inside where it is broken off, outside where there is none. -/
def date? (s : List Char) : Option (Option (List Char)) := do
  let (year, r) ← fixed? 4 0 9999 s
  let r ← after? '-' r
  return do
    let (month, r) ← fixed? 2 1 12 r
    let r ← after? '-' r
    let (_, r) ← fixed? 2 1 (monthLength year month) r
    return r

/-- What follows the decimals of a second, if there are any. -/
def decimals (s : List Char) : List Char :=
  match s with
  | '.' :: r =>
    match Decimal.spanDigits r with
    | ([], _) => s
    | (_, rest) => rest
  | _ => s

/-- What follows a time; `none` inside where it is broken off, outside where there is none. -/
def time? (s : List Char) : Option (Option (List Char)) := do
  let (_, r) ← fixed? 2 0 23 s
  let r ← after? ':' r
  return do
    let (_, r) ← fixed? 2 0 59 r
    let r ← after? ':' r
    let (_, r) ← fixed? 2 0 60 r
    return decimals r

/-- What follows the distance to universal time, if it is given. -/
def offset? : List Char → Option (List Char)
  | 'Z' :: r => some r
  | 'z' :: r => some r
  | c :: r =>
    if c = '+' ∨ c = '-' then do
      let (_, r) ← fixed? 2 0 23 r
      let r ← after? ':' r
      let (_, r) ← fixed? 2 0 59 r
      return r
    else some (c :: r)
  | [] => some []

/-- What follows a date, a time or both; `none` inside where they are broken off. -/
def moment? (s : List Char) : Option (Option (List Char)) :=
  match date? s with
  | some none => some none
  | some (some r) =>
    match r with
    | c :: t =>
      if c = 'T' ∨ c = 't' ∨ c = ' ' then
        match time? t with
        | some none => some none
        | some (some r) => some (offset? r)
        | none => some (some r)
      else some (some r)
    | [] => some (some [])
  | none => time? s

/-! ## Numbers -/

/-- Further digits of a base, each perhaps behind an underscore, and the rest. -/
def moreDigits {α : Type} (digit? : Char → Option α) : List Char → List α × List Char
  | '_' :: c :: r =>
    match digit? c with
    | some d => let (ds, rest) := moreDigits digit? r; (d :: ds, rest)
    | none => ([], '_' :: c :: r)
  | c :: r =>
    match digit? c with
    | some d => let (ds, rest) := moreDigits digit? r; (d :: ds, rest)
    | none => ([], c :: r)
  | [] => ([], [])

/-- One or more digits of a base, with single underscores between them. -/
def digitsOf? {α : Type} (digit? : Char → Option α) : List Char → Option (List α × List Char)
  | [] => none
  | c :: r => do
    let d ← digit? c
    let (ds, rest) := moreDigits digit? r
    return (d :: ds, rest)

def smallDigit? (base : Nat) (c : Char) : Option Nat :=
  (Decimal.digit? c).bind fun d => if d.val < base then some d.val else none

def integer64? (n : Int) : Option Int :=
  if -9223372036854775808 ≤ n ∧ n < 9223372036854775808 then some n else none

def based? (base : Nat) (digit? : Char → Option Nat) (s : List Char) :
    Option (Int × List Char) := do
  let (ds, r) ← digitsOf? digit? s
  let n ← integer64? (ds.foldl (fun n d => n * base + d) 0 : Nat)
  return (n, r)

/-- The whole part of a decimal number: a zero ends it. -/
def whole? : List Char → Option (List Digit × List Char)
  | '0' :: r => some ([⟨0, by decide⟩], r)
  | s => digitsOf? Decimal.digit? s

def sign : List Char → Bool × List Char
  | '+' :: r => (false, r)
  | '-' :: r => (true, r)
  | s => (false, s)

/-- The exponent of a number, if its mark comes next. -/
def exponent? : List Char → Option (Option Int × List Char)
  | c :: r =>
    if c = 'e' ∨ c = 'E' then do
      let (negative, r) := sign r
      let (ds, r) ← digitsOf? Decimal.digit? r
      let n : Int := Decimal.value ds
      return (some (if negative then -n else n), r)
    else some (none, c :: r)
  | [] => some (none, [])

/-- A double, unless it is too great; one that is too small is kept as infinite. -/
def finite? (x : Double) : Option Double := if x = .infinity then none else some x

def word? : (word : List Char) → List Char → Option (List Char)
  | [], s => some s
  | c :: cs, s => (after? c s).bind (word? cs)

/-- A double with the sign that stands in front of it. -/
def signed (negative : Bool) (x : Double) : Double := if negative then x.negate else x

def magnitude? (negative : Bool) (s : List Char) : Option ((Int ⊕ Double) × List Char) := do
  let (whole, r) ← whole? s
  let (fraction, r) ← match r with
    | '.' :: r => digitsOf? Decimal.digit? r
    | _ => some ([], r)
  let (e, r) ← exponent? r
  if fraction = [] ∧ e = none then
    let n : Int := Decimal.value whole
    let n ← integer64? (if negative then -n else n)
    return (.inl n, r)
  else
    let x ← finite? (Numeral.toDouble ⟨negative, Decimal.value whole, fraction, e⟩)
    return (.inr x, r)

def number? : List Char → Option ((Int ⊕ Double) × List Char)
  | '0' :: 'x' :: r => (based? 16 Double.hexDigit? r).map fun (n, r) => (.inl n, r)
  | '0' :: 'o' :: r => (based? 8 (smallDigit? 8) r).map fun (n, r) => (.inl n, r)
  | '0' :: 'b' :: r => (based? 2 (smallDigit? 2) r).map fun (n, r) => (.inl n, r)
  | s =>
    let (negative, r) := sign s
    match r with
    | 'i' :: _ =>
      (word? "inf".toList r).map fun r => (.inr (signed negative .infinity), r)
    | 'n' :: _ =>
      (word? "nan".toList r).map fun r => (.inr (signed negative .notANumber), r)
    | _ => magnitude? negative r

end CertRuns.Toml
