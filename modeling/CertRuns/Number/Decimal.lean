/-!
# Decimal numerals

* `Digit` : a decimal digit, with its character (`Digit.char`, `digit?`);
* `digits n`, `value ds` : the digits of a number without leading zeros, and back;
* `text n`, `padded w n` : the digits as text, the second filled up with zeros to width `w`;
* `unsigned? bound s` : the number below `bound` that a numeral with an optional plus sign denotes;
* `spanDigits` : the digits at the start of a text and what follows them.
-/

namespace CertRuns.Decimal

abbrev Digit := Fin 10

def Digit.char (d : Digit) : Char := Char.ofNat (48 + d.val)

def digit? (c : Char) : Option Digit :=
  if h : 48 ≤ c.toNat ∧ c.toNat < 58 then some ⟨c.toNat - 48, by omega⟩ else none

def value (ds : List Digit) : Nat := ds.foldl (fun n d => 10 * n + d.val) 0

def digits (n : Nat) : List Digit :=
  if h : n < 10 then [⟨n, h⟩] else digits (n / 10) ++ [⟨n % 10, Nat.mod_lt _ (by decide)⟩]

def chars (n : Nat) : List Char := (digits n).map Digit.char

def text (n : Nat) : String := String.ofList (chars n)

/-- The text of a number, filled up with zeros on the left to `width` characters. -/
def padded (width n : Nat) : List Char :=
  List.replicate (width - (chars n).length) '0' ++ chars n

/-- The text of an integer; a minus sign leads a negative one. -/
def intText (n : Int) : String :=
  if n < 0 then String.ofList ('-' :: chars n.natAbs) else text n.natAbs

def spanDigits : List Char → List Digit × List Char
  | [] => ([], [])
  | c :: r =>
    match digit? c with
    | some d => let (ds, rest) := spanDigits r; (d :: ds, rest)
    | none => ([], c :: r)

/-- The number that a text of one or more digits denotes. -/
def natural? (s : List Char) : Option Nat :=
  match spanDigits s with
  | ([], _) => none
  | (ds, []) => some (value ds)
  | (_, _ :: _) => none

/-- The number below `bound` that a text of digits denotes; one plus sign may lead them. -/
def unsigned? (bound : Nat) (s : List Char) : Option Nat :=
  let body := match s with
    | '+' :: r => r
    | _ => s
  (natural? body).filter (· < bound)

/-! ## Laws -/

theorem digit?_char (d : Digit) : digit? d.char = some d := by
  revert d; decide

theorem value_append (ds : List Digit) (d : Digit) : value (ds ++ [d]) = 10 * value ds + d.val := by
  simp [value]

/-- Reading the digits of a number gives the number. -/
theorem value_digits (n : Nat) : value (digits n) = n := by
  induction n using Nat.strongRecOn with
  | ind n ih =>
    rw [digits]
    split
    · simp [value]
    · rw [value_append, ih (n / 10) (by omega)]
      simp only
      omega

theorem digits_ne_nil (n : Nat) : digits n ≠ [] := by
  rw [digits]
  split <;> simp

end CertRuns.Decimal
