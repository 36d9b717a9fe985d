import WayPoint.Foundations.FormUrlencoded
import WayPoint.Manager.StatusPage

/-! The links on the pages, followed: which page the request for one gets. An id is put into its link as it
is, and read out of the query as a form would be. -/
namespace WayPoint.Manager
open Foundations

structure Params where
  instanceId : Option String
  deriving DecidableEq, Repr

/-- The page of the last successful refresh, and when that was, in milliseconds. -/
structure StatusCache where
  madeAt : Nat
  page : Option WarmPoolTemplate

/-- Answers to `GET /browsers`. -/
inductive Response where
  | instancePage (page : SingleInstancePageTemplate)
  | statusPage (page : Option WarmPoolTemplate)
  | status (e : Status)
  | internalServerError
  | badRequest
  deriving DecidableEq, Repr

def emptyStringAsNone : Option String → Option String
  | none => none
  | some s => if s = "" then none else some s

/-- What the derived `Deserialize` makes of the pairs of a query: a field may be there once. -/
def Params.deserialize (pairs : List (List Char × List Char)) : Option Params :=
  match pairs.filter (fun pair => pair.1 == "instance_id".toList) with
  | [] => some { instanceId := none }
  | [pair] => some { instanceId := emptyStringAsNone (some (String.ofList pair.2)) }
  | _ => none

/-- The query of a URL: what is after the first question mark and before the fragment. -/
def urlQuery (url : String) : List Char := ((url.toList.takeWhile (· != '#')).dropWhile (· != '?')).drop 1

/-- The `Query` extractor. -/
def queryParams (url : String) : Option Params := Params.deserialize (formPairs (utf8Bytes (urlQuery url)))

def instancePage (formats : Formats) (d : InstanceDescription) : Response :=
  match SingleInstancePageTemplate.render formats d with
  | .ok page => .instancePage page
  | .error _ => .internalServerError

def handleGetBrowser (formats : Formats) (s : InnerService) (instanceId : String) : Response :=
  match getInstanceDescription ⟨instanceId⟩ s with
  | .ok d => instancePage formats d
  | .error _ => .status (.notFound "Instance not found")

def StatusCache.refresh (cache : StatusCache) (instant : Nat) (page : Except PageError WarmPoolTemplate) :
    StatusCache :=
  if 1000 < instant - cache.madeAt then
    match page with
    | .ok page => { madeAt := instant, page := some page }
    | .error _ => cache
  else cache

/-- `order` is the order in which the map lists its values. -/
def handleGetBrowsers (formats : Formats) (s : InnerService) (order : Entries) (instant : Nat)
    (now : TimestampMs) (params : Params) (cache : StatusCache) : Response × StatusCache :=
  match params.instanceId with
  | some instanceId => (handleGetBrowser formats s instanceId, cache)
  | none =>
    let cache := cache.refresh instant (createStatusPage .wrapping (order.map Sigma.snd) now)
    (.statusPage cache.page, cache)

def getBrowsers (formats : Formats) (s : InnerService) (order : Entries) (instant : Nat)
    (now : TimestampMs) (url : String) (cache : StatusCache) : Response × StatusCache :=
  match queryParams url with
  | some params => handleGetBrowsers formats s order instant now params cache
  | none => (.badRequest, cache)

/-- The link of an id asks for that id, and so is answered with the page of the instance that has it. -/
structure LeadsBack (id : InstanceId) : Prop where
  params : queryParams (instanceUrl id) = some { instanceId := some id.instanceId }
  page : ∀ formats s order instant now cache d, s.lookup id.instanceId = some d →
    getBrowsers formats s order instant now (instanceUrl id) cache = (instancePage formats d, cache)

/-- Nothing in the text has a meaning of its own in a query. -/
structure Plain (text : List Char) : Prop where
  nonempty : text ≠ []
  separator : '&' ∉ text
  fragment : '#' ∉ text
  plus : '+' ∉ text
  escape : ¬ HasEscape text

private theorem emptyStringAsNone_eq_some {s t : String} :
    emptyStringAsNone (some s) = some t ↔ s = t ∧ t ≠ "" := by
  rw [emptyStringAsNone]
  constructor
  · intro h
    split at h
    · cases h
    · next hs =>
      obtain rfl := Option.some.inj h
      exact ⟨rfl, hs⟩
  · intro h
    obtain ⟨rfl, hs⟩ := h
    exact if_neg hs

private theorem urlQuery_instanceUrl (id : InstanceId) :
    urlQuery (instanceUrl id) = "instance_id=".toList ++ id.instanceId.toList.takeWhile (· != '#') := by
  have hresource : ∀ c ∈ "browsers?instance_id=".toList, (c != '#') = true :=
    List.all_eq_true.mp (by decide)
  have hpath : ∀ c ∈ "browsers".toList, (c != '?') = true := List.all_eq_true.mp (by decide)
  have hurl : "browsers?instance_id=".toList = "browsers".toList ++ '?' :: "instance_id=".toList := by decide
  unfold urlQuery instanceUrl
  rw [String.toList_append, List.takeWhile_append_of_pos hresource, hurl, List.append_assoc,
    List.dropWhile_append_of_pos hpath, List.cons_append, List.dropWhile_cons_of_neg (by decide),
    List.drop_one, List.tail_cons]

/-- The first pair of the query is the id, as far as a separator lets it be read. -/
private theorem formPairs_instanceId (text : List Char) :
    ∃ later, formPairs (utf8Bytes ("instance_id=".toList ++ text)) =
        ("instance_id".toList, decodeComponent (utf8Bytes (text.takeWhile (· != '&')))) :: later ∧
      ('&' ∉ text → later = []) := by
  have hname : decodeComponent (utf8Bytes "instance_id".toList) = "instance_id".toList :=
    (decodeComponent_utf8Bytes_iff _).mpr ⟨by decide, fun h => by
      obtain ⟨high, low, hwithin, _⟩ := h
      exact absurd (hwithin.subset List.mem_cons_self) (by decide)⟩
  have hpair (value : List Char) : formPair (utf8Bytes ("instance_id=".toList ++ value)) =
      ("instance_id".toList, decodeComponent (utf8Bytes value)) := by
    have hbytes : utf8Bytes ("instance_id=".toList ++ value) =
        utf8Bytes "instance_id".toList ++ 61 :: utf8Bytes value := utf8Bytes_append _ _
    rw [hbytes, formPair_append (by decide), hname]
  have hsep {value : List Char} (h : '&' ∉ value) :
      38 ∉ utf8Bytes ("instance_id=".toList ++ value) := by
    rw [utf8Bytes_append, List.mem_append, not_or]
    exact ⟨by decide, notMem_utf8Bytes (c := '&') (by decide) h⟩
  have hne (value : List Char) : utf8Bytes ("instance_id=".toList ++ value) ≠ [] := List.cons_ne_nil _ _
  by_cases h : '&' ∈ text
  · obtain ⟨value, more, rfl, hvalue⟩ := List.eq_append_cons_of_mem h
    have hcut : (value ++ '&' :: more).takeWhile (· != '&') = value := by
      rw [List.takeWhile_append_of_pos (List.takeWhile_eq_self_iff.mp (takeWhile_ne_eq_self hvalue)),
        List.takeWhile_cons_of_neg (by decide), List.append_nil]
    have hbytes : utf8Bytes ("instance_id=".toList ++ (value ++ '&' :: more)) =
        utf8Bytes ("instance_id=".toList ++ value) ++ 38 :: utf8Bytes more := by
      rw [← List.append_assoc]
      exact utf8Bytes_append _ _
    refine ⟨formPairs (utf8Bytes more), ?_, fun hnot => absurd h hnot⟩
    rw [hbytes, formPairs_append (hsep hvalue) (hne value), hpair, hcut]
  · exact ⟨[], by rw [formPairs_single (hsep h) (hne text), hpair, takeWhile_ne_eq_self h], fun _ => rfl⟩

private theorem filter_instanceId (value : List Char) (later : List (List Char × List Char)) :
    (("instance_id".toList, value) :: later).filter (fun pair => pair.1 == "instance_id".toList) =
      ("instance_id".toList, value) :: later.filter (fun pair => pair.1 == "instance_id".toList) :=
  List.filter_cons_of_pos (beq_self_eq_true _)

theorem deserialize_eq_some {value : List Char} {later : List (List Char × List Char)} {params : Params}
    (h : Params.deserialize (("instance_id".toList, value) :: later) = some params) :
    params.instanceId = emptyStringAsNone (some (String.ofList value)) := by
  rw [Params.deserialize, filter_instanceId] at h
  split at h
  · next heq => cases heq
  · next heq =>
    obtain ⟨rfl, _⟩ := List.cons.inj heq
    cases h
    rfl
  · cases h

private theorem deserialize_single (value : List Char) :
    Params.deserialize [("instance_id".toList, value)] =
      some { instanceId := emptyStringAsNone (some (String.ofList value)) } := by
  rw [Params.deserialize, filter_instanceId, List.filter_nil]

/-- What the query reads as the id: a fragment ends it, and so does a separator. -/
def readBack (text : List Char) : List Char :=
  decodeComponent (utf8Bytes ((text.takeWhile (· != '#')).takeWhile (· != '&')))

private theorem queryParams_instanceUrl {id : InstanceId} {t : String}
    (h : queryParams (instanceUrl id) = some { instanceId := some t }) :
    readBack id.instanceId.toList = t.toList ∧ t ≠ "" := by
  obtain ⟨later, hpairs, _⟩ := formPairs_instanceId (id.instanceId.toList.takeWhile (· != '#'))
  rw [queryParams, urlQuery_instanceUrl, hpairs] at h
  obtain ⟨ht, hne⟩ := emptyStringAsNone_eq_some.mp (deserialize_eq_some h).symm
  exact ⟨String.ofList_eq.mp ht, hne⟩

/-- Whatever is lost on the way, an id is not read as itself then. -/
private theorem plain_of_readBack {text : List Char} (h : readBack text = text) (hne : text ≠ []) : Plain text := by
  have hle : asciiChars text ≤ asciiChars ((text.takeWhile (· != '#')).takeWhile (· != '&')) := by
    calc asciiChars text = asciiChars (readBack text) := by rw [h]
      _ ≤ asciiChars ((text.takeWhile (· != '#')).takeWhile (· != '&')) := by
          rw [← asciiBytes_utf8Bytes ((text.takeWhile (· != '#')).takeWhile (· != '&'))]
          exact asciiChars_decodeComponent_le _
  have hfragment : '#' ∉ text := by
    intro hmem
    have hlt := asciiChars_takeWhile_lt (c := '#') (by decide) hmem
    have hcut := asciiChars_takeWhile_le (· != '&') (text.takeWhile (· != '#'))
    omega
  rw [readBack, takeWhile_ne_eq_self hfragment] at h
  rw [takeWhile_ne_eq_self hfragment] at hle
  have hseparator : '&' ∉ text := by
    intro hmem
    have hlt := asciiChars_takeWhile_lt (c := '&') (by decide) hmem
    omega
  rw [takeWhile_ne_eq_self hseparator, decodeComponent_utf8Bytes_iff] at h
  exact ⟨hne, hseparator, hfragment, h.1, h.2⟩

theorem Plain.queryParams {id : InstanceId} (h : Plain id.instanceId.toList) :
    queryParams (instanceUrl id) = some { instanceId := some id.instanceId } := by
  obtain ⟨later, hpairs, hlater⟩ := formPairs_instanceId id.instanceId.toList
  have hread := (decodeComponent_utf8Bytes_iff id.instanceId.toList).mpr ⟨h.plus, h.escape⟩
  rw [Manager.queryParams, urlQuery_instanceUrl, takeWhile_ne_eq_self h.fragment, hpairs, hlater h.separator,
    deserialize_single, takeWhile_ne_eq_self h.separator, hread, String.ofList_toList]
  refine congrArg (fun instanceId => some (Params.mk instanceId)) (emptyStringAsNone_eq_some.mpr ⟨rfl, ?_⟩)
  intro hempty
  exact h.nonempty (hempty ▸ rfl)

/-- The links that lead back are those of the ids that a query reads as they are. -/
theorem leadsBack_iff (id : InstanceId) : LeadsBack id ↔ Plain id.instanceId.toList := by
  constructor
  · intro h
    obtain ⟨hread, hne⟩ := queryParams_instanceUrl h.params
    exact plain_of_readBack hread fun hnil => hne (String.toList_eq_nil_iff.mp hnil)
  · intro h
    refine ⟨h.queryParams, fun formats s order instant now cache d hd => ?_⟩
    rw [getBrowsers, h.queryParams]
    simp only [handleGetBrowsers, handleGetBrowser, getInstanceDescription, hd]

def addBrowser (id : InstanceId) : Rpc :=
  .tryAddInstance { instanceId := some id, instanceType := some InstanceType.chromeBrowser.toI32 }

/-- Both ids are accepted, and the link of the first leads to the second. -/
theorem not_leadsBack_plus :
    ((addBrowser ⟨"a+b"⟩).execute (Stream'.const ⟨1000⟩) ∅).1 = .bool (.ok true) ∧
    ((addBrowser ⟨"a b"⟩).execute (Stream'.const ⟨2000⟩)
      (replay ∅ [(⟨1000⟩, addBrowser ⟨"a+b"⟩)])).1 = .bool (.ok true) ∧
    queryParams (instanceUrl ⟨"a+b"⟩) = some { instanceId := some "a b" } ∧
    ¬ LeadsBack ⟨"a+b"⟩ := by
  have hread : queryParams (instanceUrl ⟨"a+b"⟩) = some { instanceId := some "a b" } := by decide
  refine ⟨by decide +kernel, by decide +kernel, hread, fun h => ?_⟩
  have hparams := h.params
  rw [hread] at hparams
  exact absurd hparams (by decide)

end WayPoint.Manager
