/-!
# Reading bytes as characters

Documents arrive as bytes, and bytes that form no character are harmless in parts of a document
that nobody reads. So a document is read as symbols first:

* `Symbol` : a character, or `none` for a byte that belongs to no character;
* `symbols` : the symbols of a byte string in order, `ofText` those of a text;
* `text?` : the text of a byte string all of whose bytes belong to characters.

A byte below 128 always stands for itself, so a stray byte never hides a delimiter.
-/

namespace CertRuns.Text

abbrev Symbol := Option Char

def continuation? (b : UInt8) : Option Nat :=
  if 0x80 ≤ b.toNat ∧ b.toNat < 0xC0 then some (b.toNat - 0x80) else none

/-- The character with scalar value `n`, if that value needs at least the given size. -/
def scalar? (least n : Nat) : Option Char :=
  if least ≤ n ∧ n.isValidChar then some (Char.ofNat n) else none

/-- The character that the bytes `a :: r` start with, and how many bytes of `r` it takes. -/
def leading? (a : UInt8) (r : List UInt8) : Option (Char × Nat) :=
  let n := a.toNat
  if n < 0x80 then some (Char.ofNat n, 0)
  else if n < 0xC0 then none
  else if n < 0xE0 then
    match r with
    | b :: _ => do
      let x ← continuation? b
      let c ← scalar? 0x80 ((n - 0xC0) * 64 + x)
      return (c, 1)
    | _ => none
  else if n < 0xF0 then
    match r with
    | b :: c :: _ => do
      let x ← continuation? b
      let y ← continuation? c
      let c ← scalar? 0x800 (((n - 0xE0) * 64 + x) * 64 + y)
      return (c, 2)
    | _ => none
  else if n < 0xF8 then
    match r with
    | b :: c :: d :: _ => do
      let x ← continuation? b
      let y ← continuation? c
      let z ← continuation? d
      let c ← scalar? 0x10000 ((((n - 0xF0) * 64 + x) * 64 + y) * 64 + z)
      return (c, 3)
    | _ => none
  else none

/-- The symbols of the bytes after the first `skip`, behind those already found. -/
def symbolsFrom (found : List Symbol) : Nat → List UInt8 → List Symbol
  | _, [] => found.reverse
  | skip + 1, _ :: r => symbolsFrom found skip r
  | 0, a :: r =>
    match leading? a r with
    | some (c, taken) => symbolsFrom (some c :: found) taken r
    | none => symbolsFrom (none :: found) 0 r

def symbols (b : ByteArray) : List Symbol := symbolsFrom [] 0 b.data.toList

def ofText (s : String) : List Symbol := s.toList.map some

def textOfSymbols? (l : List Symbol) : Option String :=
  if l.all Option.isSome then some (String.ofList (l.filterMap id)) else none

def text? (b : ByteArray) : Option String := textOfSymbols? (symbols b)

end CertRuns.Text
