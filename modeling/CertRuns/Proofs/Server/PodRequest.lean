import CertRuns.Proofs.Http.Segment
import CertRuns.Server.Exchange

/-!
# Which pod a request is about

The name of a pod is put behind the path of its namespace's pods as it is, and the address is
parsed afterwards. So a request is about the pod of that name only if the name is plain.

* `ApiClient.HasRoot`, `Url.IsPodsOf`, `Url.IsPodOf` : the server, the pods of a namespace and one
  of them;
* `podsText`, `ApiClient.HasRoot.pods` : what the addresses of pods become;
* `pod_request_iff` : when a request is about its pod; `not_about_its_pod` : two that are not.
-/

namespace CertRuns

open Url (bytes percentDecode IsBare IsPlain EndsPlainly)

/-- The root of the client's server, whose address has neither a query nor a fragment. -/
structure ApiClient.HasRoot (client : ApiClient) (root : Url) : Prop where
  bare : IsBare client.address.toList
  parsed : Url.parse? (client.address ++ "/") = some root

/-- The address of the pods of a namespace: its last segment but one is read back as the name of
the namespace. -/
def Url.IsPodsOf (root : Url) (ns : String) (u : Url) : Prop :=
  ∃ segment,
    u = { root with
      path := root.path.dropLast ++ ["api", "v1", "namespaces", segment, "pods"]
      query := none } ∧
    percentDecode segment.toList = ns.toUTF8.data.toList

/-- The address of a pod: one segment more, which is read back as the name of the pod. -/
def Url.IsPodOf (pods : Url) (name : String) (u : Url) : Prop :=
  ∃ segment,
    u = { pods with path := pods.path ++ [segment], query := none } ∧
    percentDecode segment.toList = name.toUTF8.data.toList

/-- The request reads or deletes the pod. -/
def Request.IsAboutPod (key : ObjectKey) (r : Request) : Prop := r = .getPod key ∨ r = .deletePod key

/-! ## The addresses of pods -/

def podsText (ns : List Char) : List Char :=
  "api/v1/namespaces".toList ++ '/' :: (ns ++ '/' :: "pods".toList)

theorem toList_podsPath (ns : String) : (podsPath ns).toList = '/' :: podsText ns.toList := by
  have hbefore : "/api/v1/namespaces/".toList = '/' :: ("api/v1/namespaces".toList ++ ['/']) := by
    decide
  have hbehind : "/pods".toList = '/' :: "pods".toList := by decide
  unfold podsPath podsText
  rw [String.toList_append, String.toList_append, hbefore, hbehind]
  simp only [List.cons_append, List.append_assoc, List.nil_append]

theorem ApiClient.listPods_url (client : ApiClient) (ns : String) :
    (client.request (.listPods ns)).url =
      String.ofList (client.address.toList ++ '/' :: podsText ns.toList) := by
  apply String.toList_injective
  rw [String.toList_ofList, ← toList_podsPath]
  exact String.toList_append

theorem ApiClient.pod_url (client : ApiClient) {key : ObjectKey} {r : Request}
    (hr : r.IsAboutPod key) :
    (client.request r).url =
      String.ofList
        (client.address.toList ++ '/' :: (podsText key.ns.toList ++ '/' :: key.name.toList)) := by
  have hpath : r.path = podPath key := by obtain rfl | rfl := hr <;> rfl
  have hslash : "/".toList = ['/'] := by decide
  apply String.toList_injective
  show (client.address ++ r.path).toList = _
  rw [hpath]
  unfold podPath
  rw [String.toList_ofList, String.toList_append, String.toList_append, String.toList_append,
    toList_podsPath, hslash]
  simp only [List.cons_append, List.append_assoc, List.nil_append]

namespace Url

theorem tidy_podsText (ns : List Char) : tidy (podsText ns) = podsText (ns.filter isInner) := by
  unfold podsText
  rw [tidy_append, tidy_append]
  rfl

theorem tidy_podsText_append (ns s : List Char) :
    tidy (podsText ns ++ '/' :: s) = podsText (ns.filter isInner) ++ '/' :: tidy s := by
  unfold podsText
  rw [tidy_append, List.filter_append, List.filter_cons_of_pos (by decide), List.filter_append,
    List.filter_cons_of_pos (by decide)]
  rfl

theorem isBare_podsText {ns : List Char} : IsBare (podsText (ns.filter isInner)) ↔ IsBare ns := by
  unfold podsText
  rw [isBare_append, isBare_slash, isBare_append, isBare_slash, isBare_filter_isInner]
  constructor
  · rintro ⟨-, hns, -⟩
    exact hns
  · intro hns
    exact ⟨by decide, hns, by decide⟩

/-- The folder of the pods of a namespace, below another one, both with the last segment first. -/
def podsFolder (before : List String) (ns : List Char) : List String :=
  "pods" :: (segments ("api/v1/namespaces".toList ++ '/' :: ns.filter isInner)).foldl enter before

theorem isPlain_pods : IsPlain "pods".toList := by decide

theorem encodePath_pods : encodePath "pods".toList = "pods" := by decide

theorem segments_podsText (ns : List Char) :
    segments (podsText ns) =
      segments ("api/v1/namespaces".toList ++ '/' :: ns) ++ ["pods".toList] := by
  unfold podsText
  rw [segments_append, segments_append, segments_append, List.append_assoc,
    isPlain_pods.segments]

theorem normaliseFrom_podsText (before : List String) (ns : List Char) :
    normaliseFrom before (segments (podsText (ns.filter isInner))) =
      (podsFolder before ns).reverse := by
  rw [segments_podsText, normaliseFrom_append _ _ (List.cons_ne_nil _ _),
    normaliseFrom_single _ isPlain_pods.not_isParent isPlain_pods.not_isSame]
  unfold podsFolder
  rw [List.reverse_cons, encodePath_pods]

theorem normaliseFrom_podsText_append (before : List String) (ns s : List Char) :
    normaliseFrom before (segments (podsText (ns.filter isInner) ++ '/' :: s)) =
      normaliseFrom (podsFolder before ns) (segments s) := by
  rw [segments_append, segments_podsText, normaliseFrom_append _ _ (segments_ne_nil s),
    List.foldl_append, List.foldl_cons, List.foldl_nil, isPlain_pods.enter, encodePath_pods]
  rfl

theorem podsFolder_of_plain (before : List String) {ns : List Char} (h : IsPlain ns) :
    podsFolder before ns = "pods" :: encodePath ns :: "namespaces" :: "v1" :: "api" :: before := by
  have hsegments : segments "api/v1/namespaces".toList =
      ["api".toList, "v1".toList, "namespaces".toList] := by decide
  have hapi : IsPlain "api".toList := by decide
  have hversion : IsPlain "v1".toList := by decide
  have hnamespaces : IsPlain "namespaces".toList := by decide
  unfold podsFolder
  rw [h.filter_isInner, segments_append, h.segments, hsegments]
  simp only [List.foldl_append, List.foldl_cons, List.foldl_nil, h.enter, hapi.enter,
    hversion.enter, hnamespaces.enter]
  rfl

end Url

section
variable {client : ApiClient} {root : Url} {before : List String}

/-- What the address of the client becomes with a path behind it. -/
structure ApiClient.Roots (client : ApiClient) (root : Url) (before : List String) : Prop where
  path : root.path = before.reverse ++ [""]
  query : root.query = none
  parse : ∀ s, Url.parse? (String.ofList (client.address.toList ++ '/' :: s)) =
    some { root with
      path := Url.normaliseFrom before (Url.segments (Url.pathText (Url.tidy s)))
      query := Url.queryText? (Url.tidy s) }

theorem ApiClient.HasRoot.roots (h : client.HasRoot root) : ∃ before, client.Roots root before := by
  have haddress : String.ofList (client.address.toList ++ ['/']) = client.address ++ "/" := by
    apply String.toList_injective
    rw [String.toList_ofList, String.toList_append]
    rfl
  have hparsed : Url.parse? (String.ofList (client.address.toList ++ ['/'])) = some root := by
    rw [haddress, h.parsed]
  obtain ⟨before, hpath, hquery, hparse⟩ := Url.parse?_append h.bare hparsed
  exact ⟨before, hpath, hquery, hparse⟩

theorem ApiClient.Roots.listPods (h : client.Roots root before) {ns : String}
    (hns : IsBare ns.toList) :
    Url.parse? (client.request (.listPods ns)).url =
      some { root with path := (Url.podsFolder before ns.toList).reverse } := by
  have hbare := Url.isBare_podsText.2 hns
  rw [client.listPods_url, h.parse, Url.tidy_podsText, Url.pathText_of_bare hbare,
    Url.queryText?_of_bare hbare, Url.normaliseFrom_podsText, ← h.query]

theorem ApiClient.Roots.pod (h : client.Roots root before) {key : ObjectKey} {r : Request}
    (hr : r.IsAboutPod key) (hns : IsBare key.ns.toList) :
    Url.parse? (client.request r).url =
      some { root with
        path := Url.normaliseFrom (Url.podsFolder before key.ns.toList)
          (Url.segments (Url.pathText (Url.tidy key.name.toList)))
        query := Url.queryText? (Url.tidy key.name.toList) } := by
  have hbare := Url.isBare_podsText.2 hns
  have hslash : IsBare (podsText (key.ns.toList.filter Url.isInner) ++ ['/']) :=
    Url.isBare_append.2 ⟨hbare, by decide⟩
  have hpath := Url.pathText_append hslash (Url.tidy key.name.toList)
  have hquery := Url.queryText?_append hslash (Url.tidy key.name.toList)
  rw [List.append_assoc, List.singleton_append] at hpath hquery
  rw [client.pod_url hr, h.parse, Url.tidy_podsText_append, hpath, hquery, List.append_assoc,
    List.singleton_append, Url.normaliseFrom_podsText_append]

/-- Behind a namespace that ends the path, the name of a pod does not count. -/
theorem ApiClient.Roots.of_not_bare (h : client.Roots root before) {key : ObjectKey} {r : Request}
    (hr : r.IsAboutPod key) (hns : ¬IsBare key.ns.toList) :
    ∃ pods url, Url.parse? (client.request (.listPods key.ns)).url = some pods ∧
      Url.parse? (client.request r).url = some url ∧ url.path = pods.path := by
  have hbare := Url.isBare_podsText.not.2 hns
  refine ⟨_, _, by rw [client.listPods_url, h.parse], by rw [client.pod_url hr, h.parse], ?_⟩
  dsimp only
  rw [Url.tidy_podsText, Url.tidy_podsText_append, Url.pathText_append_of_not_bare hbare]

theorem ApiClient.Roots.isPodOf_iff (h : client.Roots root before) {key : ObjectKey} {r : Request}
    (hr : r.IsAboutPod key) :
    ∃ pods url, Url.parse? (client.request (.listPods key.ns)).url = some pods ∧
      Url.parse? (client.request r).url = some url ∧
      (pods.IsPodOf key.name url ↔
        IsBare key.ns.toList ∧ IsPlain key.name.toList ∧ EndsPlainly key.name.toList) := by
  by_cases hns : IsBare key.ns.toList
  · refine ⟨_, _, h.listPods hns, h.pod hr hns, ?_⟩
    rw [← Url.last_segment_iff (Url.podsFolder before key.ns.toList), and_iff_right hns]
    unfold Url.IsPodOf
    simp only [Url.toUTF8_eq_bytes, Url.mk.injEq, true_and, and_assoc]
  · obtain ⟨pods, url, hpods, hurl, hpath⟩ := h.of_not_bare hr hns
    refine ⟨pods, url, hpods, hurl, fun hpod => ?_, fun hplain => absurd hplain.1 hns⟩
    obtain ⟨segment, rfl, -⟩ := hpod
    simp at hpath

theorem ApiClient.Roots.isPodsOf (h : client.Roots root before) {ns : String}
    (hns : IsPlain ns.toList) {pods : Url}
    (hpods : Url.parse? (client.request (.listPods ns)).url = some pods) : root.IsPodsOf ns pods := by
  rw [h.listPods hns.isBare] at hpods
  cases hpods
  refine ⟨Url.encodePath ns.toList, ?_, ?_⟩
  · rw [Url.podsFolder_of_plain before hns, h.path, List.dropLast_concat, ← h.query]
    simp
  · rw [hns.percentDecode_encodePath, Url.toUTF8_eq_bytes]

/-- Namespace and name are plain. -/
structure ObjectKey.IsPlain (key : ObjectKey) : Prop where
  ns : Url.IsPlain key.ns.toList
  name : Url.IsPlain key.name.toList
  ending : EndsPlainly key.name.toList

theorem ApiClient.Roots.plain_pod (h : client.Roots root before) {key : ObjectKey} {r : Request}
    (hr : r.IsAboutPod key) (hkey : key.IsPlain) :
    ∃ url, Url.parse? (client.request r).url = some url ∧ url.query = none ∧
      url.path = before.reverse ++ ["api", "v1", "namespaces", Url.encodePath key.ns.toList, "pods",
        Url.encodePath key.name.toList] := by
  have htidy := hkey.name.tidy hkey.ending
  refine ⟨_, h.pod hr hkey.ns.isBare, ?_, ?_⟩
  · dsimp only
    rw [htidy, Url.queryText?_of_bare hkey.name.isBare]
  · dsimp only
    rw [Url.normaliseFrom_plain _ hkey.name hkey.ending, Url.podsFolder_of_plain before hkey.ns]
    simp

/-- Plain keys are told apart by what their requests ask for. -/
theorem ApiClient.Roots.key_injective (h : client.Roots root before) {key key' : ObjectKey}
    {r r' : Request} (hr : r.IsAboutPod key) (hr' : r'.IsAboutPod key') (hkey : key.IsPlain)
    (hkey' : key'.IsPlain)
    (htarget : requestTarget? (client.request r) = requestTarget? (client.request r')) :
    key = key' := by
  obtain ⟨url, hurl, hquery, hpath⟩ := h.plain_pod hr hkey
  obtain ⟨url', hurl', hquery', hpath'⟩ := h.plain_pod hr' hkey'
  unfold requestTarget? at htarget
  rw [hurl, hurl', Option.map_some, Option.map_some, Option.some.injEq] at htarget
  have hslashes : ∀ key : ObjectKey, key.IsPlain → ∀ s ∈ ["api", "v1", "namespaces",
      Url.encodePath key.ns.toList, "pods", Url.encodePath key.name.toList], '/' ∉ s.toList := by
    intro key hkey
    simp only [List.forall_mem_cons]
    exact ⟨by decide, by decide, by decide, hkey.ns.slash_not_mem, by decide,
      hkey.name.slash_not_mem, fun s hs => by cases hs⟩
  have hsegments := Url.target_injective hpath hpath' hquery hquery' (hslashes key hkey)
    (hslashes key' hkey') (List.cons_ne_nil _ _) (List.cons_ne_nil _ _) htarget
  simp only [List.cons.injEq, true_and, and_true] at hsegments
  obtain ⟨hns, hname⟩ := hsegments
  have hnsEq : key.ns = key'.ns :=
    String.toList_injective (hkey.ns.encodePath_injective hkey'.ns hns)
  have hnameEq : key.name = key'.name :=
    String.toList_injective (hkey.name.encodePath_injective hkey'.name hname)
  obtain ⟨ns, name⟩ := key
  obtain ⟨ns', name'⟩ := key'
  rw [ObjectKey.mk.injEq]
  exact ⟨hnsEq, hnameEq⟩

end

/-- A request is about the pod of its key iff the namespace does not end the path and the name is
plain. Below a plain namespace, plain names are told apart by what is asked for. -/
theorem pod_request_iff {client : ApiClient} {root : Url} (hroot : client.HasRoot root)
    {key : ObjectKey} {r : Request} (hr : r.IsAboutPod key) :
    ∃ pods url,
      Url.parse? (client.request (.listPods key.ns)).url = some pods ∧
      Url.parse? (client.request r).url = some url ∧
      (pods.IsPodOf key.name url ↔
        IsBare key.ns.toList ∧ IsPlain key.name.toList ∧ EndsPlainly key.name.toList) ∧
      (IsPlain key.ns.toList → root.IsPodsOf key.ns pods) ∧
      (key.IsPlain → ∀ key' r', r'.IsAboutPod key' → key'.IsPlain →
        requestTarget? (client.request r) = requestTarget? (client.request r') → key = key') := by
  obtain ⟨before, hroots⟩ := hroot.roots
  obtain ⟨pods, url, hpods, hurl, hiff⟩ := hroots.isPodOf_iff hr
  refine ⟨pods, url, hpods, hurl, hiff, fun hns => hroots.isPodsOf hns hpods, ?_⟩
  intro hkey key' r' hr' hkey' htarget
  exact hroots.key_injective hr hr' hkey hkey' htarget

/-- A name with a percent sign, a blank and other letters. -/
theorem pod_request_iff_odd :
    let client : ApiClient := { address := "https://10.0.0.1:443", token := none }
    let root : Url := { secure := true, authority := "10.0.0.1:443", path := [""], query := none }
    let key : ObjectKey := ⟨"ops", "100% größe"⟩
    client.HasRoot root ∧ key.IsPlain ∧
    ∃ pods url,
      Url.parse? (client.request (.listPods "ops")).url = some pods ∧
      Url.parse? (client.request (.deletePod key)).url = some url ∧
      root.IsPodsOf "ops" pods ∧ pods.IsPodOf key.name url ∧
      requestTarget? (client.request (.deletePod key)) ≠
        requestTarget? (client.request (.getPod ⟨"ops", "100%"⟩)) := by
  intro client root key
  have hroot : client.HasRoot root := ⟨by decide +kernel, by decide +kernel⟩
  have hkey : key.IsPlain := ⟨by decide +kernel, by decide +kernel, by decide +kernel⟩
  have hkey' : ObjectKey.IsPlain ⟨"ops", "100%"⟩ :=
    ⟨by decide +kernel, by decide +kernel, by decide +kernel⟩
  obtain ⟨pods, url, hpods, hurl, hiff, hplain, hinj⟩ :=
    pod_request_iff (r := .deletePod key) hroot (.inr rfl)
  refine ⟨hroot, hkey, pods, url, hpods, hurl, hplain hkey.ns,
    hiff.2 ⟨hkey.ns.isBare, hkey.name, hkey.ending⟩, fun htarget => ?_⟩
  exact absurd (hinj hkey _ _ (.inl rfl) hkey' htarget) (by decide)

/-- A name that leads to another namespace, one that leads to another kind of object and one that
leads to all the pods of its namespace. -/
theorem not_about_its_pod :
    let client : ApiClient := { address := "https://10.0.0.1:443", token := none }
    let target (name : String) := requestTarget? (client.request (.deletePod ⟨"ops", name⟩))
    target "../../other/pods/victim" =
      requestTarget? (client.request (.deletePod ⟨"other", "victim"⟩)) ∧
    target "../../other/pods/victim" = some "/api/v1/namespaces/other/pods/victim" ∧
    target "../secrets/token" = some "/api/v1/namespaces/ops/secrets/token" ∧
    target "." = some "/api/v1/namespaces/ops/pods/" := by
  decide +kernel

end CertRuns
