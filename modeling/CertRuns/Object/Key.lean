import CertRuns.Json.Decode

/-!
# The identity of an object

* `ObjectKey` : the namespace and the name of an object, ordered by namespace and then by name;
* `ObjectKey.text` : the form `namespace/name`.
-/

namespace CertRuns

/-- The identity of a namespaced object. -/
structure ObjectKey where
  ns : String
  name : String
  deriving DecidableEq, Repr, Inhabited

namespace ObjectKey

instance : Ord ObjectKey := ⟨compareLex (compareOn ns) (compareOn name)⟩

instance : Std.TransOrd ObjectKey :=
  inferInstanceAs (Std.TransCmp (compareLex (compareOn ObjectKey.ns) (compareOn ObjectKey.name)))

instance : Std.LawfulEqOrd ObjectKey where
  eq_of_compare {a b} h := by
    have h : (compareOn ObjectKey.ns a b).then (compareOn ObjectKey.name a b) = .eq := h
    rw [Ordering.then_eq_eq] at h
    cases a; cases b
    simp only [mk.injEq]
    exact ⟨Std.LawfulEqCmp.eq_of_compare h.1, Std.LawfulEqCmp.eq_of_compare h.2⟩

def text (k : ObjectKey) : String := k.ns ++ "/" ++ k.name

def toJson (k : ObjectKey) : Json :=
  .record [("namespace", .ofText k.ns), ("name", .ofText k.name)]

/-- The key that a record gives; both parts are needed. -/
def ofJson? (j : Json) : Option ObjectKey := do
  let m ← j.members? ["namespace", "name"]
  return { ns := ← m.required "namespace" Json.text?, name := ← m.required "name" Json.text? }

end ObjectKey

end CertRuns
