import CertRuns.Cluster.Store

/-!
# A link with faults

In a rehearsal the operator reaches the cluster through a link that can be told to fail or to be
slow, and that keeps a log of the calls.

* `Fault`, `Fault.error` : an error put in the way of a call;
* `Link` : the faults and delays in force, and the log;
* `Link.schedule`, `Link.slow`, `Link.note`, `Link.nextFault`, `Link.takeLog`.
-/

namespace CertRuns.Rehearsal

/-- An error put in the way of a call. -/
inductive Fault where
  | notFound
  | conflict
  | alreadyExists
  | api (status : Nat) (message : String)
  | config (detail : String)
  | decode (detail : String)
  deriving DecidableEq, Repr

def Fault.error (kind : ObjectKind) (key : ObjectKey) : Fault → ClusterError
  | notFound => .notFound kind key
  | conflict => .conflict kind key
  | alreadyExists => .alreadyExists kind key
  | api status message => .api status message
  | config detail => .config detail
  | decode detail => .decode detail

/-- The link between operator and cluster. -/
structure Link where
  /-- For each kind of call, what comes in the way of the next ones. -/
  faults : Method → List (Option Fault) := fun _ => []
  /-- For each kind of call, by how many milliseconds the answer is late. -/
  delay : Method → Option Nat := fun _ => none
  /-- The calls so far, the last one first. -/
  log : List String := []

namespace Link

def schedule (l : Link) (m : Method) (faults : List (Option Fault)) : Link :=
  { l with faults := fun n => if n = m then faults else l.faults n }

def slow (l : Link) (m : Method) (ms : Option Nat) : Link :=
  { l with delay := fun n => if n = m then ms else l.delay n }

def note (l : Link) (now : Nat) (r : Request) : Link :=
  { l with log := (Decimal.text now ++ " " ++ r.method.text ++ " " ++ r.target.text) :: l.log }

def nextFault (l : Link) (m : Method) : Link × Option Fault :=
  match l.faults m with
  | [] => (l, none)
  | f :: fs => (l.schedule m fs, f)

def takeLog (l : Link) : Link × List String := ({ l with log := [] }, l.log.reverse)

end Link

end CertRuns.Rehearsal
