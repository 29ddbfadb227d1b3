/-!
# HTTP requests and answers

* `HttpRequest` : what is sent to a server; `HttpAnswer` : what comes back;
* `HttpLink` : a way to reach servers, on which a request may get no answer;
* `isSuccess` : the statuses of answers that grant a request.
-/

namespace CertRuns

structure HttpRequest where
  method : String
  url : String
  /-- The credentials, if there are any. -/
  authorization : Option String
  /-- A document in JSON, if there is one. -/
  body : Option String
  deriving DecidableEq, Repr

structure HttpAnswer where
  status : Nat
  body : ByteArray

/-- A way to reach servers. A request that finds none, or is not answered, gets no answer. -/
abbrev HttpLink := HttpRequest → Option HttpAnswer

def isSuccess (status : Nat) : Bool := 200 ≤ status && status < 300

end CertRuns
