import CertRuns.Json.Basic
import CertRuns.Number.Double

/-!
# Numerals as doubles

* `Double.ofRatio n d` : the double nearest to `n / d`, a half to the even neighbour;
* `Double.ofScaled m e` : the double nearest to `m * 10 ^ e`;
* `Double.ofInt`, `Numeral.toDouble` : the doubles nearest to an integer and to a numeral.

Exponents far outside of the range of doubles are settled before any power is computed.
-/

namespace CertRuns

namespace Double

/-- `m * 2 ^ q` as a double, for `m` up to `2 ^ 53` that has 53 binary digits unless `q` is the
least exponent, `-1074`. What is too great is infinite. -/
def ofParts (m : Nat) (q : Int) : Double :=
  let bits := (q + 1074).toNat * twoTo 52 + m
  if infinity.bits.toNat ≤ bits then infinity else ⟨bits.toUInt64⟩

def ofRatio (n d : Nat) : Double :=
  if n = 0 then ⟨0⟩
  else
    let least : Int := n.log2 - d.log2 - 53
    let reaches (q : Int) : Bool := d * twoTo (q + 53).toNat ≤ n * twoTo (-(q + 53)).toNat
    let q := max (-1074) (if reaches least then least + 1 else least)
    ofParts (halfEven (n * twoTo (-q).toNat) (d * twoTo q.toNat)) q

def ofScaled (m : Nat) (e : Int) : Double :=
  let magnitude : Int := (Decimal.digits m).length + e
  if m = 0 ∨ magnitude < -330 then ⟨0⟩
  else if 320 < magnitude then infinity
  else ofRatio (m * tenTo e.toNat) (tenTo (-e).toNat)

def ofInt (n : Int) : Double :=
  let x := ofRatio n.natAbs 1
  if n < 0 then x.negate else x

end Double

def Numeral.toDouble (n : Numeral) : Double :=
  let m := Decimal.value (Decimal.digits n.whole ++ n.fraction)
  let x := Double.ofScaled m (n.exponent.getD 0 - n.fraction.length)
  if n.negative then x.negate else x

end CertRuns
