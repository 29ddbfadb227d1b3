import CertRuns.Number.Decimal

/-!
# Certificate files

A certificate is written as text: lines of base 64 between a line that begins it and one that ends
it. What the lines denote is one sequence in the encoding of certificates.

* `sextet?`, `octets?` : base 64;
* `isSequence` : do bytes form one sequence?
* `holdsCertificate` : does a file begin with a certificate, after lines that are passed over?
-/

namespace CertRuns.Certificate

/-! ## Base 64 -/

def sextet? (c : Char) : Option Nat :=
  if 'A' ≤ c ∧ c ≤ 'Z' then some (c.toNat - 65)
  else if 'a' ≤ c ∧ c ≤ 'z' then some (c.toNat - 71)
  else if '0' ≤ c ∧ c ≤ '9' then some (c.toNat + 4)
  else if c = '+' then some 62
  else if c = '/' then some 63
  else none

/-- The bytes of base 64 in groups of four characters, the last one filled up. -/
def octets? : List Char → Option (List Nat)
  | [] => some []
  | [a, b, '=', '='] => do
    let a ← sextet? a
    let b ← sextet? b
    return [a * 4 + b / 16]
  | [a, b, c, '='] => do
    let a ← sextet? a
    let b ← sextet? b
    let c ← sextet? c
    return [a * 4 + b / 16, b % 16 * 16 + c / 4]
  | a :: b :: c :: d :: r => do
    let a ← sextet? a
    let b ← sextet? b
    let c ← sextet? c
    let d ← sextet? d
    let rest ← octets? r
    return [a * 4 + b / 16, b % 16 * 16 + c / 4, c % 4 * 64 + d] ++ rest
  | _ => none

/-! ## Sequences -/

def isSequence : List Nat → Bool
  | 0x30 :: n :: r =>
    if n < 0x80 then r.length == n
    else
      let width := n - 0x80
      let length := (r.take width).foldl (fun m b => m * 256 + b) 0
      0 < width && r.length == width + length
  | _ => false

/-! ## Files -/

def lines (s : List Char) : List (List Char) :=
  s.foldr (fun c ls =>
    if c = '\n' then [] :: ls
    else if c = '\r' then ls
    else
      match ls with
      | l :: ls => (c :: l) :: ls
      | [] => [[c]]) [[]]

def holdsCertificate (text : String) : Bool :=
  let ls := (lines text.toList).dropWhile (· != "-----BEGIN CERTIFICATE-----".toList)
  let body := (ls.drop 1).takeWhile (· != "-----END CERTIFICATE-----".toList)
  match ls.drop (1 + body.length) with
  | [] => false
  | _ => ((octets? body.flatten).map isSequence).getD false

end CertRuns.Certificate
