import CertRuns.Control.Tracker
import CertRuns.Time.Timestamp

/-!
# Asking the operator about its state

The operator answers requests about its health, its readiness and the runs that it tracks. Each of
the three has its own path, may be read and nothing else, and knows no parameters.

* `Page`, `Page.ofPath?`, `Page.answer` : what can be asked for;
* `pathOf` : the path in the address of a request;
* `OperatorView`, `respond` : what the operator answers.
-/

namespace CertRuns

def operatorVersion : String := "0.1.0"

inductive PageBody where
  | empty
  | text (s : String)
  | json (v : Json)

structure PageAnswer where
  status : Nat
  contentType : Option String := none
  /-- The methods that are allowed, where the request used another one. -/
  allow : Option String := none
  body : PageBody := .empty

structure OperatorView where
  ready : Bool := false
  tracker : Tracker := {}

inductive Page where
  | health
  | readiness
  | runs
  deriving DecidableEq, Repr

namespace Page

def ofPath? (path : String) : Option Page :=
  if path = "/healthz" then some health
  else if path = "/readyz" then some readiness
  else if path = "/api/v1/runs" then some runs
  else none

def content (view : OperatorView) (now : Timestamp) : Page → Nat × Json
  | health =>
    (200, .record [
      ("data", .record [("status", .ofText "ok"), ("version", .ofText operatorVersion)]),
      ("meta", .record [("timestamp", .ofText now.text), ("version", .ofText operatorVersion)])])
  | readiness =>
    let (status, text) := if view.ready then (200, "ready") else (503, "starting")
    (status, .record [("data", .record [("status", .ofText text)])])
  | runs =>
    (200, .record [("data", .ofList TrackedView.toJson view.tracker.snapshot),
      ("meta", .record [("total", .ofNat view.tracker.size)])])

end Page

/-- What follows the scheme and the server in an address. -/
def localPart (address : List Char) : List Char :=
  match address.dropWhile (· != '/') with
  | '/' :: '/' :: r => r.dropWhile (· != '/')
  | r => r

def pathOf (address : String) : String :=
  let s := address.toList.takeWhile fun c => c != '?' && c != '#'
  if s.head? = some '/' then String.ofList s else String.ofList (localPart s)

/-- The answer without its document, where only the head was asked for. -/
def PageAnswer.forMethod (method : String) (a : PageAnswer) : PageAnswer :=
  if method = "HEAD" then { a with body := .empty } else a

def respond (view : OperatorView) (now : Timestamp) (method address : String) : PageAnswer :=
  match Page.ofPath? (pathOf address) with
  | none =>
    PageAnswer.forMethod method {
      status := 404
      contentType := some "text/plain; charset=utf-8"
      body := .text "not found" }
  | some page =>
    if method = "GET" ∨ method = "HEAD" then
      let (status, document) := page.content view now
      PageAnswer.forMethod method {
        status
        contentType := some "application/json"
        body := .json document }
    else { status := 405, allow := some "GET,HEAD" }

end CertRuns
