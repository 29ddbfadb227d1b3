import CertRuns.Cluster.Request
import CertRuns.Number.Double
import CertRuns.Time.Duration

/-!
# What a task waits for

A task runs until it needs something from outside: the answer to a call, a point of time, a
cancellation. A suspended task is a value that says what it waits for, and a function takes it
on from there once that has come. A task that panics is never taken on again.

* `Instant` with `add`, `Kept`, `after` : points of time, and which of them the clock can tell;
* `Token` : switches that cancel tasks;
* `Wait`, `Wait.Event` : what a task may wait for, and what it is then given;
* `Alarm` : what ends a pause that may end in three ways;
* `Ticker` : a clock that ticks at once and then once a period.
-/

namespace CertRuns

/-- A point of time in nanoseconds since the clock was started. -/
structure Instant where
  nanos : Nat
  deriving DecidableEq, Repr, Inhabited

namespace Instant

def add (t : Instant) (d : Duration) : Instant := ⟨t.nanos + d.nanos⟩

/-- A point of time that the clock can tell has whole seconds of 63 bits. -/
def Kept (t : Instant) : Prop := t.nanos < secondBound * 1000000000

instance (t : Instant) : Decidable t.Kept :=
  inferInstanceAs (Decidable (t.nanos < secondBound * 1000000000))

/-- Thirty years, in place of a span that is too long for the clock. -/
def longSpan : Duration := .ofSeconds 946080000

def after (t : Instant) (d : Duration) : Instant :=
  if (t.add d).Kept then t.add d else t.add longSpan

end Instant

/-- A switch by which a task can be cancelled. -/
structure Token where
  id : Nat
  deriving DecidableEq, Repr, Inhabited

/-- What stands at the path of a file. -/
inductive FileState where
  | missing
  | directory
  | file (content : ByteArray)

inductive Alarm where
  | cancelled
  | deadline
  | tick
  deriving DecidableEq, Repr

inductive Wait where
  /-- The answer to a call. -/
  | call (request : Request)
  /-- A point of time. -/
  | sleep (wake : Instant)
  /-- A cancellation, a deadline or a tick, whichever comes first. -/
  | pause (token : Token) (deadline : Option Instant) (tick : Instant)
  /-- A look at the file with the results. -/
  | look
  /-- A random number between zero and a bound. -/
  | draw (bound : Double)
  /-- Nothing that could come: the task has panicked. -/
  | never

abbrev Wait.Event : Wait → Type
  | .call request => request.Reply
  | .sleep _ => Unit
  | .pause _ _ _ => Alarm
  | .look => FileState
  | .draw _ => Double
  | .never => Empty

/-! ## Tickers -/

/-- A clock that ticks once a period. -/
structure Ticker where
  period : Duration
  next : Instant
  deriving DecidableEq, Repr

namespace Ticker

/-- A ticker whose first tick is due at once. -/
def start (now : Instant) (period : Duration) : Ticker := ⟨period, now⟩

/-- How late a tick may be noticed without moving the later ones. -/
def tolerance : Duration := .ofMillis 5

/-- The ticker after a tick that is noticed at `now`. A tick that is noticed too late moves the
following ones. -/
def advance (t : Ticker) (now : Instant) : Ticker :=
  if (t.next.add tolerance).nanos < now.nanos then { t with next := now.after t.period }
  else { t with next := t.next.after t.period }

end Ticker

end CertRuns
