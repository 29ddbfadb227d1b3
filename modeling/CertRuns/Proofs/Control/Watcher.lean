import CertRuns.Control.Watcher
import CertRuns.Proofs.Control.Listing

/-!
# What a step of a watcher can do

* `Watcher.Resumes c now w event c' turn` : all that can come of a watcher that is given `event`;
* `Watcher.resumes` : what `Watcher.resume` does is one of these.
-/

namespace CertRuns

/-- The runs whose failure a watcher has to be told. -/
def Controller.failed (c : Controller) (number : Nat) : List ObjectKey :=
  (c.failures.filter (·.1 == number)).map (·.2)

namespace Watcher

/-- The watcher that begins a listing: it has forgotten the runs whose reconciliation failed. -/
def listing (c : Controller) (w : Watcher) : Watcher :=
  { w with known := (c.failed w.number).foldl Table.erase w.known, stage := .listing }

/-- All that can come of a step of a watcher. -/
inductive Resumes (c : Controller) (now : Instant) :
    (w : Watcher) → w.wait.Event → Controller → Turn → Prop
  /-- It is cancelled. -/
  | stopped {number : Nat} {ns : String} {token : Token} {ticker : Ticker} {known : KeySet}
      {initial seeded : Bool} {alarm : Alarm} (ha : alarm ≠ .tick) :
      Resumes c now ⟨number, ns, token, ticker, known, initial, seeded, .resting⟩ alarm c .ended
  /-- It has not started the counter yet, and looks for pods. -/
  | looks {number : Nat} {ns : String} {token : Token} {ticker : Ticker} {known : KeySet}
      {initial : Bool} :
      Resumes c now ⟨number, ns, token, ticker, known, initial, false, .resting⟩ .tick c
        (.going ⟨number, ns, token, ticker.advance now, known, initial, false, .seeding⟩ [])
  /-- It begins a listing. -/
  | begins {number : Nat} {ns : String} {token : Token} {ticker : Ticker} {known : KeySet}
      {initial : Bool} :
      Resumes c now ⟨number, ns, token, ticker, known, initial, true, .resting⟩ .tick
        (c.takeFailures number).1
        (.going (listing c ⟨number, ns, token, ticker.advance now, known, initial, true, .resting⟩) [])
  /-- It starts the counter, and begins a listing. -/
  | seeds {number : Nat} {ns : String} {token : Token} {ticker : Ticker} {known : KeySet}
      {initial seeded : Bool} {pods : List Pod} :
      Resumes c now ⟨number, ns, token, ticker, known, initial, seeded, .seeding⟩ (.ok pods)
        ((c.seed pods).1.takeFailures number).1
        (.going (listing c ⟨number, ns, token, ticker, known, initial, true, .seeding⟩) [])
  /-- The pods could not be listed. -/
  | unseeded {number : Nat} {ns : String} {token : Token} {ticker : Ticker} {known : KeySet}
      {initial seeded : Bool} {e : ClusterError} :
      Resumes c now ⟨number, ns, token, ticker, known, initial, seeded, .seeding⟩ (.error e) c
        (.going ⟨number, ns, token, ticker, known, initial, seeded, .resting⟩ [])
  /-- The runs are listed. -/
  | lists {number : Nat} {ns : String} {token : Token} {ticker : Ticker} {known : KeySet}
      {initial seeded : Bool} {runs : List Run} :
      Resumes c now ⟨number, ns, token, ticker, known, initial, seeded, .listing⟩ (.ok runs) c
        (.going ⟨number, ns, token, ticker, (compareListing known runs initial).2, false, seeded,
          .resting⟩ (compareListing known runs initial).1)
  /-- The runs could not be listed. -/
  | unlisted {number : Nat} {ns : String} {token : Token} {ticker : Ticker} {known : KeySet}
      {initial seeded : Bool} {e : ClusterError} :
      Resumes c now ⟨number, ns, token, ticker, known, initial, seeded, .listing⟩ (.error e) c
        (.going ⟨number, ns, token, ticker, known, initial, seeded, .resting⟩ [])

theorem resumes {c c' : Controller} {now : Instant} {w : Watcher} {event : w.wait.Event}
    {turn : Turn} (h : w.resume c now event = (c', turn)) : Resumes c now w event c' turn := by
  obtain ⟨number, ns, token, ticker, known, initial, seeded, stage⟩ := w
  cases stage with
  | resting =>
    cases event with
    | cancelled | deadline =>
      cases h
      exact .stopped nofun
    | tick =>
      cases seeded with
      | false =>
        cases h
        exact .looks
      | true =>
        cases h
        exact .begins
  | seeding =>
    cases event with
    | error e =>
      cases h
      exact .unseeded
    | ok pods =>
      cases h
      exact .seeds
  | listing =>
    cases event with
    | error e =>
      cases h
      exact .unlisted
    | ok runs =>
      cases h
      exact .lists

end Watcher

end CertRuns
