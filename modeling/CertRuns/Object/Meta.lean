import CertRuns.Object.Key
import CertRuns.Time.Timestamp

/-!
# Object metadata

* `OwnerReference` : the object that another object belongs to;
* `ObjectMeta` : identity, version, labels and owners of an object, with its key;
* `Stamp` : what a new object is given.
-/

namespace CertRuns

/-- The object that another object belongs to. -/
structure OwnerReference where
  apiVersion : String
  kind : String
  name : String
  uid : String
  deriving DecidableEq, Repr, Inhabited

structure ObjectMeta where
  name : String := ""
  ns : String := ""
  uid : String := ""
  /-- The version that a write must name to replace the object. -/
  resourceVersion : String := ""
  labels : Table String String := .empty
  owners : List OwnerReference := []
  created : Option Timestamp := none
  deriving DecidableEq, Repr, Inhabited

def ObjectMeta.key (m : ObjectMeta) : ObjectKey := ⟨m.ns, m.name⟩

/-- What a new object is given: the date, and a random `uid`. -/
structure Stamp where
  date : Timestamp
  uid : String

/-- The `uid` of version 4 without a random bit. -/
def Stamp.zeroUid : String := "00000000-0000-4000-8000-000000000000"

instance : Coe Timestamp Stamp := ⟨fun date => ⟨date, Stamp.zeroUid⟩⟩

def Stamp.epoch : Stamp := Timestamp.epoch

/-! ## JSON -/

def OwnerReference.toJson (o : OwnerReference) : Json :=
  .record [("apiVersion", .ofText o.apiVersion), ("kind", .ofText o.kind),
    ("name", .ofText o.name), ("uid", .ofText o.uid)]

/-- The owner reference that a record gives; all four parts are needed. -/
def OwnerReference.ofJson? (j : Json) : Option OwnerReference := do
  let m ← j.members? ["apiVersion", "kind", "name", "uid"]
  return {
    apiVersion := ← m.required "apiVersion" Json.text?
    kind := ← m.required "kind" Json.text?
    name := ← m.required "name" Json.text?
    uid := ← m.required "uid" Json.text? }

def Timestamp.toJson (t : Timestamp) : Json := .ofText t.text

def Timestamp.ofJson? (j : Json) : Option Timestamp := do
  let s ← j.text?
  Timestamp.parse? s

namespace ObjectMeta

/-- Metadata as a record; empty parts are left out. -/
def toJson (m : ObjectMeta) : Json :=
  .record (Json.textField "name" m.name ++ Json.textField "namespace" m.ns ++
    Json.textField "uid" m.uid ++ Json.textField "resourceVersion" m.resourceVersion ++
    Json.tableField "labels" Json.ofText m.labels ++
    Json.listField "ownerReferences" OwnerReference.toJson m.owners ++
    Json.optionField "creationTimestamp" Timestamp.toJson m.created)

/-- The metadata that a record gives; every part may be missing. -/
def ofJson? (j : Json) : Option ObjectMeta := do
  let m ← j.members? ["name", "namespace", "uid", "resourceVersion", "labels",
    "ownerReferences", "creationTimestamp"]
  return {
    name := ← m.optional "name" Json.text? ""
    ns := ← m.optional "namespace" Json.text? ""
    uid := ← m.optional "uid" Json.text? ""
    resourceVersion := ← m.optional "resourceVersion" Json.text? ""
    labels := ← m.optional "labels" (Json.table? Json.text?) .empty
    owners := ← m.optional "ownerReferences" (Json.list? OwnerReference.ofJson?) []
    created := ← m.optional "creationTimestamp" (Json.nullable? Timestamp.ofJson?) none }

end ObjectMeta

end CertRuns
