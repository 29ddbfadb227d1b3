import CertRuns.Json.Basic
import CertRuns.Number.Power

/-!
# The magnitude of a number

A number that is kept without a meaning must fit a double. Its leading digits, as many as fit into
64 bits, are rounded to 53 binary digits and scaled by a rounded power of ten.

* `roundTo bits n` : `n` rounded to `bits` leading binary digits, a half to the even neighbour;
* `Numeral.leading` : the leading digits and the power of ten that scales them;
* `Numeral.isFinite` : the scaled number stays below the range of doubles.
-/

namespace CertRuns

def roundTo (bits n : Nat) : Nat :=
  let size := n.log2 + 1
  if size ≤ bits then n
  else
    let unit := twoTo (size - bits)
    let q := n / unit
    let r := n % unit
    (if unit < 2 * r ∨ (2 * r = unit ∧ q % 2 = 1) then q + 1 else q) * unit

def maxWord : Nat := longBound - 1

/-- The leading digits of a number that fit into 64 bits, and the power of ten that scales them. -/
def Numeral.leading (n : Numeral) : Nat × Int :=
  let (m, dropped) := (Decimal.digits n.whole).foldl
    (fun (m, dropped) d =>
      if dropped = 0 ∧ m * 10 + d.val ≤ maxWord then (m * 10 + d.val, 0) else (m, dropped + 1))
    ((0 : Nat), (0 : Int))
  let (m, places, _) := n.fraction.foldl
    (fun (m, places, full) d =>
      if full = false ∧ m * 10 + d.val ≤ maxWord then (m * 10 + d.val, places + 1, false)
      else (m, places, true))
    (m, (0 : Int), false)
  (m, dropped - places + n.exponent.getD 0)

/-- Does the number stay finite when its leading digits are rounded and scaled as doubles? -/
def Numeral.isFinite (n : Numeral) : Bool :=
  let (m, e) := n.leading
  m == 0 || e < 0 ||
    (e ≤ 308 && roundTo 53 (roundTo 53 m * roundTo 53 (tenTo e.toNat)) < twoTo 1024)

end CertRuns
