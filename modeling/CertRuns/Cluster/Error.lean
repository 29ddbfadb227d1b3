import CertRuns.Number.Decimal
import CertRuns.Object.Key

/-!
# What can go wrong at the cluster

* `ObjectKind` : the kinds of objects that the operator asks for;
* `ClusterError` : the causes of a failed call, with `ClusterError.message`.
-/

namespace CertRuns

/-- The kinds of objects that the operator asks for. -/
inductive ObjectKind where
  | run
  | pod
  deriving DecidableEq, Repr

def ObjectKind.text : ObjectKind → String
  | run => "CnfCertificationSuiteRun"
  | pod => "Pod"

inductive ClusterError where
  | notFound (kind : ObjectKind) (key : ObjectKey)
  /-- The write named a version that is no longer the stored one. -/
  | conflict (kind : ObjectKind) (key : ObjectKey)
  | alreadyExists (kind : ObjectKind) (key : ObjectKey)
  /-- The server refused the call. -/
  | api (status : Nat) (message : String)
  /-- The server could not be reached. -/
  | transport (detail : String)
  /-- The answer could not be read. -/
  | decode (detail : String)
  /-- The client cannot be set up. -/
  | config (detail : String)
  deriving DecidableEq, Repr

namespace ClusterError

def message : ClusterError → String
  | notFound kind key => kind.text ++ " " ++ key.text ++ " not found"
  | conflict kind key =>
    "conflict writing " ++ kind.text ++ " " ++ key.text ++ ": the object has been modified"
  | alreadyExists kind key => kind.text ++ " " ++ key.text ++ " already exists"
  | api status message => "API server returned " ++ Decimal.text status ++ ": " ++ message
  | transport detail => "request to API server failed: " ++ detail
  | decode detail => "failed to decode API response: " ++ detail
  | config detail => "cluster client misconfigured: " ++ detail

def isNotFound : ClusterError → Bool
  | notFound _ _ => true
  | _ => false

def isConflict : ClusterError → Bool
  | conflict _ _ => true
  | _ => false

end ClusterError

end CertRuns
