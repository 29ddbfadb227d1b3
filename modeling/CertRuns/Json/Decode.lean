import CertRuns.Json.Magnitude
import CertRuns.Json.Parser
import CertRuns.Table

/-!
# Reading values out of JSON

Decoders turn a JSON value into a value of the domain or refuse it. Objects that stand for records
name their fields: members that name no field are skipped unread, a field that is given twice is
refused, and an array stands for a record by listing the fields in their order.

* `text?`, `bool?`, `integer?`, `list?`, `table?`, `nullable?`, `choice?` : decoders of plain
  values;
* `Members`, `members?` : the fields that a record gives;
  `Members.required`, `Members.optional` : one of them;
* `isFree`, `free?` : the limits on values that are kept without a meaning;
* `field`, `textField`, `listField`, `optionField`, `flagField` : members to be written, the last
  four left out where there is nothing to say.
-/

namespace CertRuns.Json

/-! ## Plain values -/

def text? : Json → Option String
  | .string s => s
  | _ => none

def bool? : Json → Option Bool
  | .bool b => some b
  | _ => none

def integer? (low high : Int) : Json → Option Int
  | .number n => n.int?.filter fun i => low ≤ i && i < high
  | _ => none

def natural? (j : Json) : Option Nat := (integer? 0 longBound j).map Int.toNat

def list? {α : Type} (f : Json → Option α) : Json → Option (List α)
  | .array vs => vs.mapM f
  | _ => none

def binding? {α : Type} (f : Json → Option α) : Option String × Json → Option (String × α)
  | (none, _) => none
  | (some k, v) => (f v).map (k, ·)

/-- A table of what `f` reads; of two members with one key the later counts. -/
def table? {α : Type} (f : Json → Option α) : Json → Option (Table String α)
  | .object ms => (ms.mapM (binding? f)).map Table.ofList
  | _ => none

def nullable? {α : Type} (f : Json → Option α) : Json → Option (Option α)
  | .null => some none
  | j => (f j).map some

/-- The name of a choice without content: a text, or an object that gives it the content `null`. -/
def choice? : Json → Option String
  | .string s => s
  | .object [(k, .null)] => k
  | _ => none

/-! ## Records -/

abbrev Members := List (String × Json)

/-- The fields among the members of an object; `canonical` maps a second name to the first. -/
def fieldsOf? (fields : List String) (canonical : String → String) :
    List (Option String × Json) → Option Members
  | [] => some []
  | (none, _) :: _ => none
  | (some k, v) :: ms => do
    let given ← fieldsOf? fields canonical ms
    let k := canonical k
    if fields.contains k then
      if (given.lookup k).isSome then none else some ((k, v) :: given)
    else some given

def members? (fields : List String) (canonical : String → String := id) : Json → Option Members
  | .object ms => fieldsOf? fields canonical ms
  | .array vs => if vs.length ≤ fields.length then some (fields.zip vs) else none
  | _ => none

def Members.required {α : Type} (m : Members) (name : String) (f : Json → Option α) : Option α :=
  match m.lookup name with
  | none => none
  | some v => f v

def Members.optional {α : Type} (m : Members) (name : String) (f : Json → Option α)
    (absent : α) : Option α :=
  match m.lookup name with
  | none => some absent
  | some v => f v

/-! ## Values without a meaning -/

/-- A value may be kept without a meaning if its nesting stays within `depth`, all its strings
denote texts and all its numbers are finite. -/
def isFree : Nat → Json → Bool
  | _, .null => true
  | _, .bool _ => true
  | _, .number n => n.isFinite
  | _, .string s => s.isSome
  | depth + 1, .array vs => vs.all (isFree depth)
  | depth + 1, .object ms => ms.all fun m => m.1.isSome && isFree depth m.2
  | 0, _ => false

def free? (depth : Nat) (j : Json) : Option Json := if isFree depth j then some j else none

/-! ## Members to be written -/

def field (name : String) (v : Json) : Members := [(name, v)]

def textField (name : String) (s : String) : Members :=
  if s = "" then [] else [(name, ofText s)]

def listField {α : Type} (name : String) (f : α → Json) : List α → Members
  | [] => []
  | l => [(name, ofList f l)]

def optionField {α : Type} (name : String) (f : α → Json) : Option α → Members
  | none => []
  | some a => [(name, f a)]

def flagField (name : String) (b : Bool) : Members :=
  if b then [(name, .bool true)] else []

def ofTable {α : Type} (f : α → Json) (t : Table String α) : Json :=
  record (t.entries.map fun e => (e.1, f e.2))

def tableField {α : Type} (name : String) (f : α → Json) (t : Table String α) : Members :=
  if t.isEmpty then [] else [(name, ofTable f t)]

end CertRuns.Json
