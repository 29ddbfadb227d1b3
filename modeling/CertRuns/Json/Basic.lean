import CertRuns.Number.Decimal

/-!
# JSON values

* `Numeral` : a number as written, so that `1`, `1.0` and `1e0` stay apart;
* `Json` : a value as written, members in order and repeated keys kept. A string is the text that
  it denotes, or `none` where its escapes and bytes denote no text;
* `Json.ofNat`, `Json.ofInt`, `Json.ofText`, `Json.record` : values to be written.
-/

namespace CertRuns

open Decimal (Digit)

/-- A number as written: sign, digits before and after the point, and the exponent. -/
structure Numeral where
  negative : Bool
  whole : Nat
  fraction : List Digit
  exponent : Option Int
  deriving DecidableEq, Repr

inductive Json where
  | null
  | bool (b : Bool)
  | number (n : Numeral)
  | string (s : Option String)
  | array (items : List Json)
  | object (members : List (Option String × Json))
  deriving Repr

namespace Numeral

def ofNat (n : Nat) : Numeral := ⟨false, n, [], none⟩

def ofInt (n : Int) : Numeral := ⟨decide (n < 0), n.natAbs, [], none⟩

/-- The integer that a numeral without point and exponent denotes. Minus zero is no integer. -/
def int? (n : Numeral) : Option Int :=
  if n.fraction ≠ [] ∨ n.exponent ≠ none then none
  else if n.negative then if n.whole = 0 then none else some (-(n.whole : Int))
  else some n.whole

theorem int?_ofNat (n : Nat) : (ofNat n).int? = some (n : Int) := by simp [ofNat, int?]

theorem int?_ofInt (n : Int) : (ofInt n).int? = some n := by
  rcases Int.lt_or_le n 0 with h | h
  · have h0 : n.natAbs ≠ 0 := by omega
    have h1 : -(n.natAbs : Int) = n := by omega
    simp only [int?, ofInt, decide_eq_true h, ne_eq, not_true_eq_false, or_self, if_false, if_true,
      h0, h1]
  · have h1 : (n.natAbs : Int) = n := by omega
    simp only [int?, ofInt, decide_eq_false (Int.not_lt.2 h), ne_eq, not_true_eq_false, or_self,
      if_false, Bool.false_eq_true, h1]

end Numeral

namespace Json

instance : Inhabited Json := ⟨null⟩

def ofNat (n : Nat) : Json := number (.ofNat n)

def ofInt (n : Int) : Json := number (.ofInt n)

def ofText (s : String) : Json := string (some s)

def ofList {α : Type} (f : α → Json) (l : List α) : Json := array (l.map f)

def record (members : List (String × Json)) : Json :=
  object (members.map fun m => (some m.1, m.2))

/-- The value of an optional part; `null` where it is missing. -/
def ofOption {α : Type} (f : α → Json) : Option α → Json
  | none => null
  | some a => f a

end Json

end CertRuns
