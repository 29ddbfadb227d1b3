import CertRuns.Number.Decimal
import CertRuns.Number.Power
import CertRuns.Text.Blank

/-!
# Spans of time

A span is a whole number of nanoseconds. Its text lists amounts with units, as in `1h 30m`.

* `Duration` with `ofSeconds`, `ofMillis`, `ofMicros`, `seconds`, `subsecond`;
* `Duration.Unit` : the units of texts, their names and lengths;
* `Duration.parse?` : reads amounts that may have decimals, blanks between any two characters of
  an amount, and no sign. Decimals must come out even;
* `Duration.text` : writes the largest units first.
-/

namespace CertRuns

/-- A span of time in nanoseconds. -/
structure Duration where
  nanos : Nat
  deriving DecidableEq, Repr, Inhabited

namespace Duration

def ofSeconds (n : Nat) : Duration := ⟨n * 1000000000⟩

def ofMillis (n : Nat) : Duration := ⟨n * 1000000⟩

def ofMicros (n : Nat) : Duration := ⟨n * 1000⟩

def seconds (d : Duration) : Nat := d.nanos / 1000000000

def subsecond (d : Duration) : Nat := d.nanos % 1000000000

/-! ## Units -/

/-- The units of texts. A month has 30.44 days and a year has 365.25. -/
inductive Unit where
  | nanosecond
  | microsecond
  | millisecond
  | second
  | minute
  | hour
  | day
  | week
  | month
  | year
  deriving DecidableEq, Repr

namespace Unit

def ofName? (s : String) : Option Unit :=
  if s ∈ ["nanos", "nsec", "ns"] then some nanosecond
  else if s ∈ ["usec", "us", "µs"] then some microsecond
  else if s ∈ ["millis", "msec", "ms"] then some millisecond
  else if s ∈ ["seconds", "second", "secs", "sec", "s"] then some second
  else if s ∈ ["minutes", "minute", "mins", "min", "m"] then some minute
  else if s ∈ ["hours", "hour", "hrs", "hr", "h"] then some hour
  else if s ∈ ["days", "day", "d"] then some day
  else if s ∈ ["weeks", "week", "wks", "wk", "w"] then some week
  else if s ∈ ["months", "month", "M"] then some month
  else if s ∈ ["years", "year", "yrs", "yr", "y"] then some year
  else none

/-- The whole seconds of a unit, zero below a second. -/
def wholeSeconds : Unit → Nat
  | nanosecond | microsecond | millisecond => 0
  | second => 1
  | minute => 60
  | hour => 3600
  | day => 86400
  | week => 604800
  | month => 2630016
  | year => 31557600

/-- The nanoseconds of a unit below a second, zero for longer units. -/
def belowSecond : Unit → Nat
  | nanosecond => 1
  | microsecond => 1000
  | millisecond => 1000000
  | _ => 0

/-- What decimals of a unit are counted in, seconds or nanoseconds, and how many a unit has. -/
def decimalScale? : Unit → Option (Bool × Nat)
  | nanosecond => none
  | microsecond => some (false, 1000)
  | millisecond => some (false, 1000000)
  | second => some (false, 1000000000)
  | minute => some (false, 60000000000)
  | u => some (true, u.wholeSeconds)

end Unit

/-! ## Reading -/

def word? (n : Nat) : Option Nat := if n < longBound then some n else none

/-- A span made longer; seconds and nanoseconds each stay within 64 bits. -/
def extend? (d : Duration) (seconds nanos : Nat) : Option Duration := do
  let _ ← word? (d.subsecond + nanos)
  let total : Duration := ⟨d.nanos + seconds * 1000000000 + nanos⟩
  let _ ← word? total.seconds
  return total

/-- The digits before the next character that is neither digit nor blank, and the rest. -/
def looseDigits : List Char → List Decimal.Digit × List Char
  | [] => ([], [])
  | c :: r =>
    match Decimal.digit? c with
    | some d => let (ds, rest) := looseDigits r; (d :: ds, rest)
    | none => if Text.isBlank c then looseDigits r else ([], c :: r)

/-- May the character stand in the name of a unit? -/
def isUnitChar (c : Char) : Bool :=
  ('a' ≤ c && c ≤ 'z') || ('A' ≤ c && c ≤ 'Z') || c == 'µ'

/-- The decimals after a point, if there is one; a point needs a digit after it. -/
def decimals? : List Char → Option (List Decimal.Digit × List Char)
  | '.' :: r =>
    match looseDigits r with
    | ([], _) => none
    | (ds, rest) => some (ds, rest)
  | s => some ([], s)

/-- A span made longer by an amount of a unit. -/
def addAmount? (d : Duration) (n : Nat) (decimals : List Decimal.Digit) (unit : Unit) :
    Option Duration := do
  let n ← word? n
  let seconds ← word? (n * unit.wholeSeconds)
  let nanos ← word? (n * unit.belowSecond)
  let d ← d.extend? seconds nanos
  if decimals = [] then return d
  else do
    let (inSeconds, scale) ← unit.decimalScale?
    let whole ← word? (tenTo decimals.length)
    let part ← word? (Decimal.value decimals * scale)
    if part % whole ≠ 0 then none
    else if inSeconds then d.extend? (part / whole) 0
    else d.extend? 0 (part / whole)

/-- A span made longer by the amounts of a text, of which at most `fuel` are read. -/
def amounts? : (fuel : Nat) → Duration → List Char → Option Duration
  | 0, _, _ => none
  | fuel + 1, d, s => do
    let (ds, r) := looseDigits s
    let (decimals, r) ← decimals? r
    let name := r.takeWhile isUnitChar
    let r := Text.trimStart (r.dropWhile isUnitChar)
    let unit ← Unit.ofName? (String.ofList name)
    let d ← d.addAmount? (Decimal.value ds) decimals unit
    match r with
    | [] => return d
    | c :: _ => if (Decimal.digit? c).isSome then amounts? fuel d r else none

def parse? (s : String) : Option Duration :=
  let s := Text.trimStart s.toList
  match s with
  | [] => none
  | c :: _ => if (Decimal.digit? c).isSome then amounts? s.length ⟨0⟩ s else none

/-! ## Writing -/

/-- An amount with a short unit, nothing for zero. -/
def shortItem (n : Nat) (unit : String) : List String :=
  if n = 0 then [] else [Decimal.text n ++ unit]

/-- An amount with a unit that has a plural, nothing for zero. -/
def longItem (n : Nat) (unit : String) : List String :=
  if n = 0 then [] else [Decimal.text n ++ unit ++ if 1 < n then "s" else ""]

def text (d : Duration) : String :=
  let inYear := d.seconds % 31557600
  let inMonth := inYear % 2630016
  let inDay := inMonth % 86400
  let items := longItem (d.seconds / 31557600) "year" ++ longItem (inYear / 2630016) "month" ++
    longItem (inMonth / 86400) "day" ++ shortItem (inDay / 3600) "h" ++
    shortItem (inDay % 3600 / 60) "m" ++ shortItem (inDay % 60) "s" ++
    shortItem (d.subsecond / 1000000) "ms" ++ shortItem (d.subsecond / 1000 % 1000) "us" ++
    shortItem (d.subsecond % 1000) "ns"
  if items = [] then "0s" else " ".intercalate items

end Duration

end CertRuns
