import CertRuns.Text.Utf8
import CertRuns.Toml.Basic
import CertRuns.Toml.Scalar

/-!
# Reading TOML documents

* `key?` : a dotted key; `value?` : a value, nested up to a limit;
* `Reader`, `line?` : a document read so far, and its next line;
* `parse?` : the table of a document.
-/

namespace CertRuns.Toml

/-- The greatest number of parts of a key, and of arrays and tables around a value. -/
def nestingLimit : Nat := 79

/-! ## Keys -/

/-- May the character stand in a key without quotes? -/
def isBareChar (c : Char) : Bool := c.isAlphanum || c == '_' || c == '-'

def keyPart? : List Char → Option (String × List Char)
  | '"' :: r => (basicText? (r.length + 1) r).map fun (cs, r) => (String.ofList cs, r)
  | '\'' :: r => (literalText? r).map fun (cs, r) => (String.ofList cs, r)
  | s =>
    let bare := s.takeWhile isBareChar
    if bare = [] then none else some (String.ofList bare, s.drop bare.length)

/-- The parts of a key, of which at most `fuel` are read. -/
def keyParts? : (fuel : Nat) → List Char → Option (List String × List Char)
  | 0, _ => none
  | fuel + 1, s => do
    let (part, r) ← keyPart? (blanks s)
    match blanks r with
    | '.' :: r =>
      let (parts, r) ← keyParts? fuel r
      return (part :: parts, r)
    | r => return ([part], r)

def key? (s : List Char) : Option (List String × List Char) := keyParts? nestingLimit s

/-! ## Values -/

/-- What follows blanks, line breaks and comments; at most `fuel` lines are skipped. -/
def gap? : (fuel : Nat) → List Char → Option (List Char)
  | 0, s => some s
  | fuel + 1, s =>
    match blanks s with
    | '#' :: r =>
      match newline? (r.dropWhile isContent) with
      | some r => gap? fuel r
      | none => none
    | r =>
      match newline? r with
      | some r => gap? fuel r
      | none => some r

/-- The items of an array up to its closing bracket. -/
def items? (value : List Char → Option (Toml × List Char)) : (fuel : Nat) → List Char →
    Option (List Toml × List Char)
  | 0, _ => none
  | fuel + 1, s => do
    let r ← gap? s.length s
    match r with
    | ']' :: r => return ([], r)
    | _ =>
      let (v, r) ← value r
      let r ← gap? r.length r
      match r with
      | ',' :: r =>
        let (vs, r) ← items? value fuel r
        return (v :: vs, r)
      | ']' :: r => return ([v], r)
      | _ => none

/-- The members of a table in braces behind those already read; a comma needs a member after it. -/
def members? (value : List Char → Option (Toml × List Char)) : (fuel : Nat) → Table →
    List Char → Option (Table × List Char)
  | 0, _, _ => none
  | fuel + 1, t, s => do
    let (key, r) ← key? s
    let r ← after? '=' r
    let (v, r) ← value (blanks r)
    let t ← t.assign? key v
    match blanks r with
    | ',' :: r => members? value fuel t r
    | '\x7d' :: r => return (t, r)
    | _ => none

def value? : (depth : Nat) → List Char → Option (Toml × List Char)
  | depth, s =>
    match s with
    | '"' :: _ => (text? s).map fun (t, r) => (.text t, r)
    | '\'' :: _ => (text? s).map fun (t, r) => (.text t, r)
    | 't' :: _ => (word? "true".toList s).map fun r => (.bool true, r)
    | 'f' :: _ => (word? "false".toList s).map fun r => (.bool false, r)
    | '[' :: r =>
      match depth with
      | 0 => none
      | depth + 1 => (items? (value? depth) (r.length + 1) r).map fun (vs, r) => (.array vs, r)
    | '\x7b' :: r =>
      match depth with
      | 0 => none
      | depth + 1 =>
        match blanks r with
        | '\x7d' :: r => some (.table .inline [], r)
        | r =>
          (members? (value? depth) (r.length + 1) [] r).map fun (t, r) => (.table .inline t, r)
    | _ =>
      match moment? s with
      | some r => r.map fun r => (.moment, r)
      | none =>
        match number? s with
        | some (.inl n, r) => some (.integer n, r)
        | some (.inr x, r) => some (.float x, r)
        | none => none

/-! ## Lines -/

/-- A document read so far, and the header that its last lines belong to. -/
structure Reader where
  root : Table := []
  path : List String := []

/-- The header of an item or of a table, its first bracket already read. -/
def header? (d : Reader) : List Char → Option (Reader × List Char)
  | '[' :: r => do
    let (path, r) ← key? r
    let r ← after? ']' r
    let r ← after? ']' r
    let root ← d.root.openItem? path
    return ({ root, path }, r)
  | s => do
    let (path, r) ← key? s
    let r ← after? ']' r
    let root ← d.root.openTable? path
    return ({ root, path }, r)

/-- A key with its value, for the table of the last header. -/
def assignment? (d : Reader) (s : List Char) : Option (Reader × List Char) := do
  let (key, r) ← key? s
  let r ← after? '=' r
  let (v, r) ← value? nestingLimit (blanks r)
  let root ← d.root.within? d.path (Table.assign? key v)
  return ({ d with root }, r)

def line? (d : Reader) (s : List Char) : Option (Reader × List Char) := do
  let s := blanks s
  let (d, r) ← match s with
    | [] => some (d, s)
    | '#' :: _ => some (d, s)
    | '\n' :: _ => some (d, s)
    | '\r' :: _ => some (d, s)
    | '[' :: r => header? d r
    | _ => assignment? d s
  let r ← lineEnd? r
  return (d, r)

/-- All lines of a document, of which at most `fuel` are read. -/
def lines? : (fuel : Nat) → Reader → List Char → Option Reader
  | 0, _, _ => none
  | fuel + 1, d, s =>
    if s = [] then some d
    else do
      let (d, r) ← line? d s
      lines? fuel d r

def parse? (s : String) : Option Table :=
  let s := match s.toList with
    | '\ufeff' :: r => r
    | s => s
  (lines? (s.length + 1) {} s).map (·.root)

end CertRuns.Toml
