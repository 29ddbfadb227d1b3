import CertRuns.Number.Double

/-!
# TOML values

A document is a table of values. A table may be written in several places, and how it was first
written decides whether it may be written to again.

* `Toml` : a value; `Toml.Origin` : how a table came about;
* `Toml.Table` : the members of a table, in the order of writing;
* `Table.assign?` : a value under a dotted key;
* `Table.openTable?`, `Table.openItem?` : a table and an item of a list of tables under a header;
* `Table.within?` : a change to the table that a header has opened.
-/

namespace CertRuns

inductive Toml.Origin where
  /-- It was written in braces and is complete. -/
  | inline
  /-- It has a header of its own. -/
  | header
  /-- It has none, but a table inside it has. -/
  | implied
  /-- It was named by a dotted key. -/
  | dotted
  deriving DecidableEq, Repr

inductive Toml where
  | text (s : String)
  | integer (n : Int)
  | float (x : Double)
  | bool (b : Bool)
  /-- A date, a time or both. Their fields mean nothing here. -/
  | moment
  | array (items : List Toml)
  | table (origin : Toml.Origin) (members : List (String × Toml))
  /-- The items of a list of tables that each have a header, the last one first. -/
  | tables (items : List (List (String × Toml)))

namespace Toml

abbrev Table := List (String × Toml)

namespace Table

/-- Replace the value of a key, or add it at the end. -/
def put (t : Table) (key : String) (v : Toml) : Table :=
  if t.any (·.1 == key) then t.map fun m => if m.1 = key then (key, v) else m
  else t ++ [(key, v)]

/-- Change the tables on the way of a header; a table that is missing is implied. -/
def alongHeader? (f : Table → Option Table) : List String → Table → Option Table
  | [], t => f t
  | key :: path, t =>
    match t.lookup key with
    | none => do
      let inner ← alongHeader? f path []
      return t.put key (.table .implied inner)
    | some (.table .inline _) => none
    | some (.table origin members) => do
      let inner ← alongHeader? f path members
      return t.put key (.table origin inner)
    | some (.tables (last :: before)) => do
      let inner ← alongHeader? f path last
      return t.put key (.tables (inner :: before))
    | some _ => none

/-- Change the table at the end of a dotted key. Tables with a header are closed to it. -/
def alongKey? (f : Table → Option Table) : (origin : Origin) → List String → Table → Option Table
  | origin, [], t => if origin = .dotted then f t else none
  | _, key :: path, t =>
    match t.lookup key with
    | none => do
      let inner ← alongKey? f .dotted path []
      return t.put key (.table .dotted inner)
    | some (.table .inline _) => none
    | some (.table .header _) => none
    | some (.table origin members) => do
      let inner ← alongKey? f origin path members
      return t.put key (.table origin inner)
    | some (.tables (last :: before)) => do
      let inner ← alongKey? f .header path last
      return t.put key (.tables (inner :: before))
    | some _ => none

def add? (key : String) (v : Toml) (t : Table) : Option Table :=
  if t.any (·.1 == key) then none else some (t ++ [(key, v)])

def assign? (key : List String) (v : Toml) (t : Table) : Option Table :=
  match key.getLast? with
  | none => none
  | some last => alongKey? (add? last v) .dotted key.dropLast t

/-- The header of a table. A table that was only implied so far may get one. -/
def openTable? (path : List String) (t : Table) : Option Table :=
  match path.getLast? with
  | none => none
  | some last =>
    alongHeader? (fun t =>
      match t.lookup last with
      | none => some (t.put last (.table .header []))
      | some (.table .implied members) => some (t.put last (.table .header members))
      | some _ => none) path.dropLast t

def openItem? (path : List String) (t : Table) : Option Table :=
  match path.getLast? with
  | none => none
  | some last =>
    alongHeader? (fun t =>
      match t.lookup last with
      | none => some (t.put last (.tables [[]]))
      | some (.tables items) => some (t.put last (.tables ([] :: items)))
      | some _ => none) path.dropLast t

def within? (path : List String) (f : Table → Option Table) (t : Table) : Option Table :=
  alongHeader? f path t

end Table

end Toml

end CertRuns
