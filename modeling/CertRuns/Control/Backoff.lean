import CertRuns.Number.Double
import CertRuns.Time.Duration

/-!
# Waiting between attempts

A write that conflicts is tried again after a delay that grows by a factor from attempt to attempt,
and that is made longer by a random part of it.

* `RetryPolicy` : how often, and how long between attempts;
* `RetryPolicy.delay` : the delay before an attempt is repeated, without the random part;
* `RetryPolicy.draws`, `RetryPolicy.pause?` : whether the random part has to be drawn, and the pause
  with it. There is no pause if no number can be drawn, or if it becomes too long.
-/

namespace CertRuns

/-- How often a conflicting write is tried, and how long the pauses are. -/
structure RetryPolicy where
  /-- All attempts, the first included. -/
  steps : Nat := 5
  initialDelay : Duration := .ofMillis 10
  factor : Double := .ofFloat 2.0
  maxDelay : Duration := .ofSeconds 1
  /-- How much longer a pause may become, as a fraction of the delay. -/
  jitter : Double := .ofFloat 0.1
  deriving DecidableEq, Repr, Inhabited

def Duration.toDouble (d : Duration) : Float :=
  Double.ofWord d.seconds + Double.ofWord d.subsecond / 1000000000.0

/-- A span times a factor that is not negative, if its seconds have 64 bits. -/
def Duration.times? (d : Duration) (x : Float) : Option Duration :=
  let seconds := x * d.toDouble
  if seconds < 18446744073709551616.0 then some ⟨Double.scaled seconds 1000000000⟩ else none

/-- The delay after attempt number `attempt`: the first delay, grown by the factor once for every
earlier attempt, and never more than the longest delay or less than nothing. -/
def RetryPolicy.delay (p : RetryPolicy) (attempt : Nat) : Duration :=
  let exponent := min (attempt - 1) 2147483647
  let seconds := p.initialDelay.toDouble * Double.power p.factor.toFloat exponent
  if !seconds.isFinite || seconds ≥ p.maxDelay.toDouble then p.maxDelay
  else if seconds > 0.0 then ⟨Double.scaled seconds 1000000000⟩
  else ⟨0⟩

def RetryPolicy.draws (p : RetryPolicy) : Bool := !p.jitter.atMostZero && p.jitter.isDrawable

/-- The pause after attempt number `attempt`. The random part of it is what was drawn; if nothing
was, then there is none, or there should have been one. -/
def RetryPolicy.pause? (p : RetryPolicy) (attempt : Nat) : Option Double → Option Duration
  | some part => (p.delay attempt).times? (1.0 + part.toFloat)
  | none => if p.jitter.atMostZero then some (p.delay attempt) else none

end CertRuns
