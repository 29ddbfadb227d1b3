import CertRuns.Number.Power

/-!
# Doubles by their bits

A double that is kept is kept by its bits, which tell apart more than comparing does: the two zeros,
and the signs of what is no number.

* `Double` with `toFloat`, `ofFloat`, `infinity`, `notANumber`, `negate`;
* `atMostZero`, `isDrawable` : what random numbers up to a double need;
* `hex`, `ofHex?` : doubles by the 16 hexadecimal digits of their bits;
* `halfEven n d` : the quotient `n / d` rounded to nearest, a half to the even neighbour;
* `parts x` : a finite double that is not negative as `m * 2 ^ q`;
* `scaled x k` : the whole number nearest to `x * k`;
* `power x n` : `x` to a natural power by repeated squaring, each product rounded.
-/

namespace CertRuns

/-- A double by its 64 bits. -/
structure Double where
  bits : UInt64
  deriving DecidableEq, Repr, Inhabited

namespace Double

def toFloat (x : Double) : Float := Float.ofBits x.bits

def ofFloat (x : Float) : Double := ⟨x.toBits⟩

def infinity : Double := ⟨0x7FF0000000000000⟩

def notANumber : Double := ⟨0x7FF8000000000000⟩

def negate (x : Double) : Double := ⟨x.bits ^^^ 0x8000000000000000⟩

def atMostZero (x : Double) : Bool :=
  x.bits == 0 || (0x8000000000000000 ≤ x.bits && x.bits ≤ 0xFFF0000000000000)

/-- Can random numbers between zero and the double be drawn? Not if it is negative, infinite or no
number, nor if it is one of the two greatest doubles: the steps between the numbers that can be drawn
would be infinite. -/
def isDrawable (x : Double) : Bool := x.bits ≤ 0x7FEFFFFFFFFFFFFD

def halfEven (n d : Nat) : Nat :=
  let q := n / d
  let r := n % d
  if d < 2 * r ∨ (2 * r = d ∧ q % 2 = 1) then q + 1 else q

def parts (x : Float) : Nat × Int :=
  let bits : Nat := x.toBits.toNat
  let fraction : Nat := bits % twoTo 52
  let exponent : Nat := bits / twoTo 52 % 2048
  if exponent = 0 then (fraction, -1074) else (fraction + twoTo 52, Int.ofNat exponent - 1075)

/-- The whole number nearest to `x * k`, for a finite double that is not negative. -/
def scaled (x : Float) (k : Nat) : Nat :=
  let (m, q) := parts x
  if 0 ≤ q then m * twoTo q.toNat * k else halfEven (m * k) (twoTo (-q).toNat)

/-- Square and multiply: `r * x ^ n`, each product rounded. -/
def powerFrom (r x : Float) (n : Nat) : Float :=
  if h : n = 0 then r
  else
    let r := if n % 2 = 1 then r * x else r
    if n / 2 = 0 then r else powerFrom r (x * x) (n / 2)
  termination_by n
  decreasing_by omega

def power (x : Float) (n : Nat) : Float := powerFrom 1.0 x n

def ofWord (n : Nat) : Float := n.toUInt64.toFloat

/-! ## Bits -/

def hex (x : Double) : String :=
  let digits := Nat.toDigits 16 x.bits.toNat
  String.ofList (List.replicate (16 - digits.length) '0' ++ digits)

def hexDigit? (c : Char) : Option Nat :=
  let n := c.toNat
  if 48 ≤ n ∧ n < 58 then some (n - 48)
  else if 97 ≤ n ∧ n < 103 then some (n - 87)
  else if 65 ≤ n ∧ n < 71 then some (n - 55)
  else none

def ofHex? (s : String) : Option Double := do
  let n ← s.toList.foldlM (fun n c => (hexDigit? c).map (n * 16 + ·)) 0
  if s.length = 16 then some ⟨n.toUInt64⟩ else none

end Double

end CertRuns
