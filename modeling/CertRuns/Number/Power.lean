/-!
# Powers and the widths of numbers

* `twoTo n`, `tenTo n` : powers of two and of ten;
* `wordBound`, `longBound` : the least numbers that do not fit into 32 and into 64 bits;
* `secondBound` : the least one that does not fit into 64 bits with a sign.
-/

namespace CertRuns

def twoTo (n : Nat) : Nat := Nat.pow 2 n

def tenTo (n : Nat) : Nat := Nat.pow 10 n

def wordBound : Nat := 4294967296

def longBound : Nat := 18446744073709551616

/-- The least number of seconds that does not fit into 64 bits with a sign, `2 ^ 63`. -/
def secondBound : Nat := 9223372036854775808

theorem tenTo_succ (n : Nat) : tenTo (n + 1) = tenTo n * 10 := rfl

end CertRuns
