import CertRuns.Http.Message
import CertRuns.Http.Url
import CertRuns.Json.Printer
import CertRuns.Object.PodJson
import CertRuns.Run.RunJson
import CertRuns.Server.Client
import CertRuns.Text.Lossy

/-!
# Calls to a cluster's server

A call becomes a request to the server, and the answer becomes what the call returns.

* `runPath`, `podPath`, `Request.path` : the resource that a call is about;
* `ApiClient.request` : the request; `requestTarget?` : what it asks the server for;
* `ServerMessage`, `refusal` : what the server says when it refuses;
* `ApiClient.read` : an answer as the call returns it; `ApiClient.call` : the whole call.
-/

namespace CertRuns

/-! ## Requests -/

def runsPath (ns : String) : String :=
  "/apis/" ++ Run.groupVersion ++ "/namespaces/" ++ ns ++ "/" ++ Run.plural

def runPath (key : ObjectKey) : String := runsPath key.ns ++ "/" ++ key.name

def podsPath (ns : String) : String := "/api/v1/namespaces/" ++ ns ++ "/pods"

def podPath (key : ObjectKey) : String := podsPath key.ns ++ "/" ++ key.name

namespace Request

def path : Request → String
  | getRun key => runPath key
  | listRuns ns => runsPath ns
  | updateRunStatus run => runPath run.key ++ "/status"
  | createPod pod => podsPath pod.metadata.ns
  | getPod key => podPath key
  | listPods ns => podsPath ns
  | deletePod key => podPath key

def verb : Request → String
  | updateRunStatus _ => "PUT"
  | createPod _ => "POST"
  | deletePod _ => "DELETE"
  | _ => "GET"

def document? : Request → Option Json
  | updateRunStatus run => some run.toJson
  | createPod pod => some pod.toJson
  | _ => none

end Request

def ApiClient.request (client : ApiClient) (r : Request) : HttpRequest where
  method := r.verb
  url := client.address ++ r.path
  authorization := client.token.map ("Bearer " ++ ·)
  body := r.document?.map Json.compact

def requestTarget? (r : HttpRequest) : Option String := (Url.parse? r.url).map Url.target

/-! ## Answers -/

/-- What a server says when it refuses. -/
structure ServerMessage where
  message : String := ""
  reason : String := ""
  deriving DecidableEq, Repr

/-- The server's words, as far as they are given. -/
def ServerMessage.ofJson? (j : Json) : Option ServerMessage := do
  let m ← j.members? ["message", "reason"]
  return {
    message := ← m.optional "message" Json.text? ""
    reason := ← m.optional "reason" Json.text? "" }

/-- The error that a refusal stands for. Without words of its own it keeps the text. -/
def refusal (status : Nat) (text : String) (kind : ObjectKind) (key : ObjectKey) : ClusterError :=
  let said := ((Json.parseText text).bind ServerMessage.ofJson?).getD {}
  if status = 404 then .notFound kind key
  else if status = 409 then
    if said.reason = "AlreadyExists" then .alreadyExists kind key else .conflict kind key
  else .api status (if said.message = "" then Text.trim text else said.message)

/-- A list of objects in a document of the server. -/
def listing? {α : Type} (f : Json → Option α) (j : Json) : Option (List α) := do
  let m ← j.members? ["items"]
  m.optional "items" (Json.list? f) []

/-- The greatest depth of a document whose content does not matter. -/
def freeDepth : Nat := 127

def Request.value? : (r : Request) → Json → Option r.Value
  | getRun _, j => Run.ofJson? j
  | listRuns _, j => listing? Run.ofJson? j
  | updateRunStatus _, j => Run.ofJson? j
  | createPod _, j => Pod.ofJson? j
  | getPod _, j => Pod.ofJson? j
  | listPods _, j => listing? Pod.ofJson? j
  | deletePod _, j => (Json.free? freeDepth j).map fun _ => ()

namespace ApiClient

def read (r : Request) (answer : HttpAnswer) : r.Reply :=
  let text := Text.Lossy.decode answer.body
  if isSuccess answer.status then
    match (Json.parseText text).bind r.value? with
    | some v => .ok v
    | none => .error (.decode "unexpected document")
  else .error (refusal answer.status text r.method.kind r.target)

/-- May the credentials stand in the head of a request? Control characters may not. -/
def isHeaderText (s : String) : Bool :=
  s.toList.all fun c => c == '\t' || (32 ≤ c.toNat && c.toNat != 127)

/-- A call over a link. A request that cannot be sent or is not answered is an error. -/
def call (client : ApiClient) (link : HttpLink) (r : Request) : r.Reply :=
  let request := client.request r
  if (requestTarget? request).isNone || !(request.authorization.map isHeaderText).getD true then
    .error (.transport "invalid request")
  else
    match link request with
    | some answer => read r answer
    | none => .error (.transport "no answer")

end ApiClient

end CertRuns
