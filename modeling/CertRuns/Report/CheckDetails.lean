import CertRuns.Run.ReportJson

/-!
# The check details of a test case

A test case lists the objects that it looked at in a document of its own: for every object the
names of its fields and their values, in two lists of one length.

* `ObjectListing`, `ObjectListing.flatten` : one object, and its fields paired;
* `CheckDetails` : the listed objects;
* `decodeCheckDetails` : the objects of a document, or why it has none.
-/

namespace CertRuns

open Json (text? list?)

/-- One listed object: the names of its fields and their values. -/
structure ObjectListing where
  keys : List String := []
  values : List String := []
  deriving DecidableEq, Repr

/-- The listed objects of a test case. -/
structure CheckDetails where
  compliant : List ObjectListing := []
  nonCompliant : List ObjectListing := []
  deriving DecidableEq, Repr

/-- Why a text gives no objects. -/
inductive CheckDetailsError where
  /-- The text is no document of the expected form. -/
  | undecodable
  /-- An object has more field names than values, or fewer. -/
  | countMismatch (keys values : Nat)
  deriving DecidableEq, Repr

/-- The text of the error, where it is not a matter of the document's form. -/
def CheckDetailsError.message? : CheckDetailsError → Option String
  | undecodable => none
  | countMismatch keys values =>
    some ("object listing has " ++ Decimal.text keys ++ " field keys but " ++
      Decimal.text values ++ " values")

def ObjectListing.ofJson? (j : Json) : Option ObjectListing := do
  let m ← j.members? ["ObjectFieldsKeys", "ObjectFieldsValues"]
  return {
    keys := ← m.optional "ObjectFieldsKeys" (list? text?) []
    values := ← m.optional "ObjectFieldsValues" (list? text?) [] }

def CheckDetails.ofJson? (j : Json) : Option CheckDetails := do
  let m ← j.members? ["CompliantObjectsOut", "NonCompliantObjectsOut"]
  return {
    compliant := ← m.optional "CompliantObjectsOut" (list? ObjectListing.ofJson?) []
    nonCompliant := ← m.optional "NonCompliantObjectsOut" (list? ObjectListing.ofJson?) [] }

/-- The fields of an object with their values; of two fields with one name the later counts. -/
def ObjectListing.flatten (o : ObjectListing) : Except CheckDetailsError TargetObject :=
  if o.keys.length = o.values.length then .ok (Table.ofList (o.keys.zip o.values))
  else .error (.countMismatch o.keys.length o.values.length)

/-- The fields of all objects, or the first object's error. -/
def flattenAll : List ObjectListing → Except CheckDetailsError (List TargetObject)
  | [] => .ok []
  | o :: os => do
    let t ← o.flatten
    let ts ← flattenAll os
    return t :: ts

def decodeCheckDetails (s : String) : Except CheckDetailsError CaseTargets :=
  match (Json.parseText s).bind CheckDetails.ofJson? with
  | none => .error .undecodable
  | some details => do
    let compliant ← flattenAll details.compliant
    let nonCompliant ← flattenAll details.nonCompliant
    return { compliant, nonCompliant }

end CertRuns
