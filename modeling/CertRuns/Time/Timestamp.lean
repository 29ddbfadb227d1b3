import CertRuns.Number.Decimal
import CertRuns.Text.Blank

/-!
# Timestamps

A timestamp is a point of universal time by its calendar fields. The second may be 60, which
names a leap second.

* `Timestamp` : the fields with their ranges; `Timestamp.of?` checks them;
* `Timestamp.text` : the form `2024-01-02T03:04:05.500Z` with no, three, six or nine decimals;
* `Timestamp.parse?` : reads that form and looser ones, with blanks between the parts, fewer
  digits, and an offset from universal time in hours and minutes.
-/

namespace CertRuns

/-! ## Calendar -/

namespace Calendar

def isLeapYear (year : Int) : Bool :=
  year % 4 == 0 && (year % 100 != 0 || year % 400 == 0)

def daysInMonth (year : Int) (month : Nat) : Nat :=
  if month = 2 then if isLeapYear year then 29 else 28
  else if month = 4 ∨ month = 6 ∨ month = 9 ∨ month = 11 then 30
  else 31

def nextDay (year : Int) (month day : Nat) : Int × Nat × Nat :=
  if day < daysInMonth year month then (year, month, day + 1)
  else if month < 12 then (year, month + 1, 1)
  else (year + 1, 1, 1)

def previousDay (year : Int) (month day : Nat) : Int × Nat × Nat :=
  if 1 < day then (year, month, day - 1)
  else if 1 < month then (year, month - 1, daysInMonth year (month - 1))
  else (year - 1, 12, 31)

end Calendar

def Timestamp.Valid (year : Int) (month day hour minute second nanos : Nat) : Prop :=
  (-262143 ≤ year ∧ year ≤ 262142) ∧ (1 ≤ month ∧ month ≤ 12) ∧
    (1 ≤ day ∧ day ≤ Calendar.daysInMonth year month) ∧ hour < 24 ∧ minute < 60 ∧
    second ≤ 60 ∧ nanos < 1000000000

instance (year : Int) (month day hour minute second nanos : Nat) :
    Decidable (Timestamp.Valid year month day hour minute second nanos) := by
  unfold Timestamp.Valid; infer_instance

/-- A point of universal time by its calendar fields. -/
structure Timestamp where
  year : Int
  month : Nat
  day : Nat
  hour : Nat
  minute : Nat
  second : Nat
  nanos : Nat
  valid : Timestamp.Valid year month day hour minute second nanos
  deriving DecidableEq

namespace Timestamp

instance : Repr Timestamp :=
  ⟨fun t _ => repr (t.year, t.month, t.day, t.hour, t.minute, t.second, t.nanos)⟩

def of? (year : Int) (month day hour minute second nanos : Nat) : Option Timestamp :=
  if h : Valid year month day hour minute second nanos then
    some ⟨year, month, day, hour, minute, second, nanos, h⟩
  else none

def epoch : Timestamp := ⟨1970, 1, 1, 0, 0, 0, 0, by decide⟩

/-! ## Writing -/

/-- A year: four digits, or a sign and at least four digits outside of 0 to 9999. -/
def yearChars (year : Int) : List Char :=
  if 0 ≤ year ∧ year ≤ 9999 then Decimal.padded 4 year.natAbs
  else (if year < 0 then '-' else '+') :: Decimal.padded 4 year.natAbs

/-- The decimals of a second: none, three, six or nine, as few as keep the value. -/
def fractionChars (nanos : Nat) : List Char :=
  if nanos = 0 then []
  else if nanos % 1000000 = 0 then '.' :: Decimal.padded 3 (nanos / 1000000)
  else if nanos % 1000 = 0 then '.' :: Decimal.padded 6 (nanos / 1000)
  else '.' :: Decimal.padded 9 nanos

def chars (t : Timestamp) : List Char :=
  yearChars t.year ++ '-' :: Decimal.padded 2 t.month ++ '-' :: Decimal.padded 2 t.day ++
    'T' :: Decimal.padded 2 t.hour ++ ':' :: Decimal.padded 2 t.minute ++
    ':' :: Decimal.padded 2 t.second ++ fractionChars t.nanos ++ ['Z']

def text (t : Timestamp) : String := String.ofList t.chars

/-! ## Reading -/

/-- The number that at most `width` digits denote, blanks before it skipped. -/
def field? (width : Nat) (s : List Char) : Option (Nat × List Char) :=
  let s := Text.trimStart s
  let (ds, _) := Decimal.spanDigits (s.take width)
  if ds = [] then none else some (Decimal.value ds, s.drop ds.length)

/-- A year: up to four digits, or any number of digits behind a sign. -/
def year? (s : List Char) : Option (Int × List Char) :=
  let signed (sign : Int) (r : List Char) : Option (Int × List Char) :=
    match Decimal.spanDigits r with
    | ([], _) => none
    | (ds, rest) => some (sign * Decimal.value ds, rest)
  match Text.trimStart s with
  | '-' :: r => signed (-1) r
  | '+' :: r => signed 1 r
  | r => (field? 4 r).map fun (n, rest) => ((n : Int), rest)

/-- What follows the character `c`, blanks before it skipped. -/
def after? (c : Char) (s : List Char) : Option (List Char) :=
  match Text.trimStart s with
  | d :: r => if d = c then some r else none
  | [] => none

def separator? : List Char → Option (List Char)
  | 't' :: r => some r
  | 'T' :: r => some r
  | ' ' :: r => some r
  | _ => none

/-- The nanoseconds that the decimals of a second denote; decimals after the ninth are dropped. -/
def nanos? : List Char → Option (Nat × List Char)
  | '.' :: r =>
    match Decimal.spanDigits r with
    | ([], _) => none
    | (ds, rest) => some (Decimal.value ((ds ++ List.replicate 9 0).take 9), rest)
  | s => some (0, s)

def pair? : List Char → Option (Nat × List Char)
  | a :: b :: r => do
    let a ← Decimal.digit? a
    let b ← Decimal.digit? b
    return (10 * a.val + b.val, r)
  | _ => none

/-- The minutes by which a place is ahead of universal time. -/
def offset? : List Char → Option (Int × List Char)
  | 'Z' :: r => some (0, r)
  | 'z' :: r => some (0, r)
  | s =>
    match s with
    | a :: b :: c :: r =>
      if a.toUpper = 'U' ∧ b.toUpper = 'T' ∧ c.toUpper = 'C' then some (0, r) else signed s
    | _ => signed s
where
  /-- Hours and minutes behind a sign, colons and blanks between them skipped. -/
  signed : List Char → Option (Int × List Char)
    | c :: r => do
      let sign : Int ←
        if c = '+' then some 1 else if c = '-' ∨ c = '−' then some (-1) else none
      let (hours, r) ← pair? r
      let (minutes, r) ← pair? (r.dropWhile fun c => c == ':' || Text.isBlank c)
      if 60 ≤ minutes ∨ 24 ≤ hours then none
      else some (sign * (60 * hours + minutes), r)
    | [] => none

/-- The point of universal time for fields of a place that is `offset` minutes ahead of it. -/
def ofLocal? (year : Int) (month day hour minute second nanos : Nat) (offset : Int) :
    Option Timestamp := do
  let _ ← of? year month day hour minute second nanos
  let minutes : Int := 60 * hour + minute - offset
  let ((year, month, day), minutes) :=
    if minutes < 0 then (Calendar.previousDay year month day, minutes + 1440)
    else if 1440 ≤ minutes then (Calendar.nextDay year month day, minutes - 1440)
    else ((year, month, day), minutes)
  of? year month day (minutes.toNat / 60) (minutes.toNat % 60) second nanos

def parse? (s : String) : Option Timestamp := do
  let (year, r) ← year? s.toList
  let r ← after? '-' r
  let (month, r) ← field? 2 r
  let r ← after? '-' r
  let (day, r) ← field? 2 r
  let r ← separator? r
  let (hour, r) ← field? 2 r
  let r ← after? ':' r
  let (minute, r) ← field? 2 r
  let r ← after? ':' r
  let (second, r) ← field? 2 r
  let (nanos, r) ← nanos? r
  let (offset, r) ← offset? (Text.trimStart r)
  if Text.trimStart r = [] then ofLocal? year month day hour minute second nanos offset else none

end Timestamp

end CertRuns
