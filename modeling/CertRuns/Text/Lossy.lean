/-!
# Reading bytes as a text in any case

The body of an answer is read as a text whatever it holds: what is no character becomes U+FFFD. A
byte order mark at the start decides the encoding and is dropped; without one it is UTF-8.

* `Partial`, `Partial.next` : a character of UTF-8 whose bytes are not complete;
* `utf8` : bytes as UTF-8; `utf16` : bytes as UTF-16 of either byte order;
* `decode` : bytes by their byte order mark.
-/

namespace CertRuns.Text.Lossy

def replacement : Char := '\ufffd'

/-! ## UTF-8 -/

/-- A character whose bytes are not complete. -/
structure Partial where
  /-- How many bytes are still due. -/
  due : Nat
  /-- What the bytes so far denote. -/
  value : Nat
  /-- The least and the greatest byte that may come next. -/
  low : Nat := 0x80
  high : Nat := 0xBF
  deriving DecidableEq, Repr

def lead (b : Nat) : List Char × Option Partial :=
  if b < 0x80 then ([Char.ofNat b], none)
  else if b < 0xC2 then ([replacement], none)
  else if b < 0xE0 then ([], some { due := 1, value := b - 0xC0 })
  else if b < 0xF0 then
    ([], some {
      due := 2, value := b - 0xE0
      low := if b = 0xE0 then 0xA0 else 0x80
      high := if b = 0xED then 0x9F else 0xBF })
  else if b < 0xF5 then
    ([], some {
      due := 3, value := b - 0xF0
      low := if b = 0xF0 then 0x90 else 0x80
      high := if b = 0xF4 then 0x8F else 0xBF })
  else ([replacement], none)

/-- A byte inside a character. One that may not come there starts the next character. -/
def Partial.next (p : Partial) (b : Nat) : List Char × Option Partial :=
  if p.low ≤ b ∧ b ≤ p.high then
    let value := p.value * 64 + (b - 0x80)
    if p.due ≤ 1 then ([Char.ofNat value], none) else ([], some { due := p.due - 1, value })
  else
    let (cs, q) := lead b
    (replacement :: cs, q)

/-- The characters of the bytes that follow the start of a character. -/
def utf8From : Option Partial → List UInt8 → List Char
  | none, [] => []
  | some _, [] => [replacement]
  | none, b :: bs =>
    let (cs, p) := lead b.toNat
    cs ++ utf8From p bs
  | some p, b :: bs =>
    let (cs, p) := p.next b.toNat
    cs ++ utf8From p bs

def utf8 (bs : List UInt8) : List Char := utf8From none bs

/-! ## UTF-16 -/

/-- The code units of bytes, `none` for a last byte that is left over. -/
def units (bigEndian : Bool) : List UInt8 → List (Option Nat)
  | a :: b :: r =>
    let (high, low) := if bigEndian then (a, b) else (b, a)
    some (high.toNat * 256 + low.toNat) :: units bigEndian r
  | [_] => [none]
  | [] => []

def ofUnits : List (Option Nat) → List Char
  | some a :: some b :: r =>
    if 0xD800 ≤ a ∧ a < 0xDC00 then
      if 0xDC00 ≤ b ∧ b < 0xE000 then
        Char.ofNat (0x10000 + (a - 0xD800) * 0x400 + (b - 0xDC00)) :: ofUnits r
      else replacement :: ofUnits (some b :: r)
    else if 0xDC00 ≤ a ∧ a < 0xE000 then replacement :: ofUnits (some b :: r)
    else Char.ofNat a :: ofUnits (some b :: r)
  | some a :: r =>
    (if 0xD800 ≤ a ∧ a < 0xE000 then replacement else Char.ofNat a) :: ofUnits r
  | none :: r => replacement :: ofUnits r
  | [] => []

def utf16 (bigEndian : Bool) (bs : List UInt8) : List Char := ofUnits (units bigEndian bs)

/-! ## Byte order marks -/

def decode (b : ByteArray) : String :=
  String.ofList <|
    match b.data.toList with
    | 0xEF :: 0xBB :: 0xBF :: r => utf8 r
    | 0xFE :: 0xFF :: r => utf16 true r
    | 0xFF :: 0xFE :: r => utf16 false r
    | bs => utf8 bs

end CertRuns.Text.Lossy
