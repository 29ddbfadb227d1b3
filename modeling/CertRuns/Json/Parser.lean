import CertRuns.Json.Token

/-!
# Reading JSON documents

A document is read token by token. What is open at a point is a list of frames, innermost first,
so the depth of a document is bounded by nothing but its length.

* `Frame` : an array or object that is not closed yet, with what it holds so far;
* `State`, `State.step` : what may come next, and what a token makes of it;
* `parse` : the value of a document that holds one value and nothing after it;
  `parseText`, `parseBytes` : the same of a text and of bytes.
-/

namespace CertRuns.Json

open Text (Symbol)

/-- An array or object that is not closed yet, with its parts so far, the last one first. -/
inductive Frame where
  | array (before : List Json)
  | object (before : List (Option String × Json)) (key : Option String)

/-- What may come next inside the open frames. -/
inductive State where
  /-- A value. -/
  | value (frames : List Frame)
  /-- A value or the end of an array that was just opened. -/
  | item (frames : List Frame)
  /-- A key, or the end of the object if it was just opened. -/
  | key (frames : List Frame) (before : List (Option String × Json)) (opened : Bool)
  /-- The colon after a key. -/
  | colon (frames : List Frame) (before : List (Option String × Json)) (key : Option String)
  /-- What follows a complete value. -/
  | after (frames : List Frame) (v : Json)

namespace State

def begin? (frames : List Frame) : Token → Option State
  | .openArray => some (.item frames)
  | .openObject => some (.key frames [] true)
  | .null => some (.after frames .null)
  | .bool b => some (.after frames (.bool b))
  | .number n => some (.after frames (.number n))
  | .string s => some (.after frames (.string s))
  | _ => none

def step : State → Token → Option State
  | .value frames, t => begin? frames t
  | .item frames, .closeArray => some (.after frames (.array []))
  | .item frames, t => begin? (.array [] :: frames) t
  | .key frames before _, .string k => some (.colon frames before k)
  | .key frames _ true, .closeObject => some (.after frames (.object []))
  | .colon frames before k, .colon => some (.value (.object before k :: frames))
  | .after (.array before :: frames) v, .comma => some (.value (.array (v :: before) :: frames))
  | .after (.array before :: frames) v, .closeArray =>
    some (.after frames (.array (v :: before).reverse))
  | .after (.object before k :: frames) v, .comma =>
    some (.key frames ((k, v) :: before) false)
  | .after (.object before k :: frames) v, .closeObject =>
    some (.after frames (.object ((k, v) :: before).reverse))
  | _, _ => none

def run : State → List Token → Option State
  | s, [] => some s
  | s, t :: ts =>
    match step s t with
    | none => none
    | some s' => run s' ts

def value? : State → Option Json
  | .after [] v => some v
  | _ => none

end State

def ofTokens? (ts : List Token) : Option Json := do
  let s ← State.run (.value []) ts
  s.value?

def parse (s : List Symbol) : Option Json := do
  let ts ← tokens s
  ofTokens? ts

def parseText (s : String) : Option Json := parse (Text.ofText s)

def parseBytes (b : ByteArray) : Option Json := parse (Text.symbols b)

end CertRuns.Json
