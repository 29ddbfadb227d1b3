import CertRuns.Time.Duration

/-!
# How long the spans of texts are

A text denotes no span of 2 ^ 64 seconds or more: every amount is added within 64 bits.

* `word?_eq_some` : what fits into 64 bits;
* `extend?_lt`, `addAmount?_lt` : one amount; `amounts?_lt` : all amounts of a text;
* `parse?_lt` : the span of a text.
-/

namespace CertRuns.Duration

theorem word?_eq_some {n m : Nat} : word? n = some m ↔ n < longBound ∧ n = m := by
  unfold word?
  split
  · rename_i h
    simp [h]
  · rename_i h
    simp [h]

theorem extend?_lt {d e : Duration} {seconds nanos : Nat}
    (h : d.extend? seconds nanos = some e) : e.seconds < longBound := by
  obtain ⟨_, -, h⟩ := Option.bind_eq_some_iff.1 h
  obtain ⟨_, hword, h⟩ := Option.bind_eq_some_iff.1 h
  cases h
  exact (word?_eq_some.1 hword).1

theorem addAmount?_lt {d e : Duration} {n : Nat} {decimals : List Decimal.Digit} {unit : Unit}
    (h : d.addAmount? n decimals unit = some e) : e.seconds < longBound := by
  obtain ⟨n, -, h⟩ := Option.bind_eq_some_iff.1 h
  obtain ⟨seconds, -, h⟩ := Option.bind_eq_some_iff.1 h
  obtain ⟨nanos, -, h⟩ := Option.bind_eq_some_iff.1 h
  obtain ⟨whole, hwhole, h⟩ := Option.bind_eq_some_iff.1 h
  split at h
  · cases h
    exact extend?_lt hwhole
  · obtain ⟨⟨inSeconds, scale⟩, -, h⟩ := Option.bind_eq_some_iff.1 h
    obtain ⟨count, -, h⟩ := Option.bind_eq_some_iff.1 h
    obtain ⟨part, -, h⟩ := Option.bind_eq_some_iff.1 h
    split at h
    · cases h
    · split at h
      · exact extend?_lt h
      · exact extend?_lt h

theorem amounts?_lt {fuel : Nat} {d e : Duration} {s : List Char}
    (h : amounts? fuel d s = some e) : e.seconds < longBound := by
  induction fuel generalizing d s with
  | zero => cases h
  | succ fuel ih =>
    unfold amounts? at h
    dsimp only at h
    obtain ⟨⟨decimals, r⟩, -, h⟩ := Option.bind_eq_some_iff.1 h
    obtain ⟨unit, -, h⟩ := Option.bind_eq_some_iff.1 h
    obtain ⟨d', hd', h⟩ := Option.bind_eq_some_iff.1 h
    split at h
    · cases h
      exact addAmount?_lt hd'
    · split at h
      · exact ih h
      · cases h

theorem parse?_lt {s : String} {d : Duration} (h : parse? s = some d) :
    d.seconds < longBound := by
  unfold parse? at h
  dsimp only at h
  split at h
  · cases h
  · split at h
    · exact amounts?_lt h
    · cases h

end CertRuns.Duration
