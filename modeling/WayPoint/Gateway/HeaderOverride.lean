import WayPoint.Gateway.ProxyConfig

/-! Which headers reach the server. HTTP compares names without their case, and the rewriting of a
head compares them as they are written. -/
namespace WayPoint.Gateway
open Foundations

/-- HTTP's comparison of header names. -/
def sameName (a b : Text) : Bool := a.map Char.toLower == b.map Char.toLower

private theorem sameName_iff {a b : Text} : sameName a b ↔ a.map Char.toLower = b.map Char.toLower := beq_iff_eq

@[simp] theorem sameName_self (a : Text) : sameName a a := sameName_iff.mpr rfl

/-- The name is that of an override. -/
def overridden (order : List (Sigma fun _ : Text => Text)) (name : Text) : Bool :=
  order.any (fun entry => sameName name entry.1)

/-- Each override stands in the head once, and all other headers are as they were. -/
structure HeadersOverridden (config : HttpProxyConfig) (order : List (Sigma fun _ : Text => Text))
    (request : Request) : Prop where
  once : ∀ key value, config.overideHeaders.lookup key = some value → ∃ name,
    (config.modifyRequest order request).headers.filter (fun header => sameName header.1 key) =
      [(name, value)]
  others : (config.modifyRequest order request).headers.filter (fun header => !overridden order header.1) =
    request.headers.filter (fun header => !overridden order header.1)
  method : (config.modifyRequest order request).method = request.method
  version : (config.modifyRequest order request).version = request.version

/-- Every header that HTTP takes for an override is spelled like one. -/
def SpelledAlike (config : HttpProxyConfig) (request : Request) : Prop :=
  ∀ header ∈ request.headers, ∀ key ∈ config.overideHeaders, sameName header.1 key →
    header.1 ∈ config.overideHeaders

/-- No two overrides are for the same header. -/
def DistinctNames (config : HttpProxyConfig) : Prop :=
  ∀ a ∈ config.overideHeaders, ∀ b ∈ config.overideHeaders, sameName a b → a = b

section enumerated
variable {config : HttpProxyConfig} {order : List (Sigma fun _ : Text => Text)} {request : Request}
  (horder : FiniteMap.Enumerates order config.overideHeaders)
include horder

theorem mem_overideHeaders_iff {key : Text} : key ∈ config.overideHeaders ↔ ∃ entry ∈ order, entry.1 = key := by
  constructor
  · intro h
    obtain ⟨value, hvalue⟩ := Finmap.mem_iff.mp h
    exact ⟨⟨key, value⟩, (horder.mem_iff ⟨key, value⟩).mpr hvalue, rfl⟩
  · intro h
    obtain ⟨entry, hentry, rfl⟩ := h
    exact Finmap.mem_of_lookup_eq_some ((horder.mem_iff entry).mp hentry)

private theorem overridden_of_mem {name : Text} (h : name ∈ config.overideHeaders) : overridden order name := by
  obtain ⟨entry, hentry, rfl⟩ := (mem_overideHeaders_iff horder).mp h
  exact List.any_eq_true.mpr ⟨entry, hentry, sameName_self entry.1⟩

private theorem others_modifyRequest :
    (config.modifyRequest order request).headers.filter (fun header => !overridden order header.1) =
      request.headers.filter (fun header => !overridden order header.1) := by
  have happended : (order.map (fun entry => (entry.1, entry.2))).filter
      (fun header => !overridden order header.1) = [] := by
    rw [List.filter_eq_nil_iff]
    intro header hheader
    obtain ⟨entry, hentry, rfl⟩ := List.mem_map.mp hheader
    simp [overridden_of_mem horder ((mem_overideHeaders_iff horder).mpr ⟨entry, hentry, rfl⟩)]
  rw [HttpProxyConfig.modifyRequest, List.filter_append, happended, List.append_nil, List.filter_filter]
  refine List.filter_congr fun header _ => ?_
  by_cases hmem : header.1 ∈ config.overideHeaders
  · simp [hmem, overridden_of_mem horder hmem]
  · simp [hmem]

/-- The overrides for one header: the one that is looked up, when there is no other. -/
private theorem filter_order (hnames : DistinctNames config) {key value : Text}
    (h : config.overideHeaders.lookup key = some value) :
    (order.map (fun entry => (entry.1, entry.2))).filter (fun header => sameName header.1 key) =
      [(key, value)] := by
  have hentry : ⟨key, value⟩ ∈ order := (horder.mem_iff ⟨key, value⟩).mpr h
  obtain ⟨before, after, rfl⟩ := List.append_of_mem hentry
  have hkeys := horder.nodup_keys
  rw [List.map_append, List.map_cons, List.nodup_append] at hkeys
  obtain ⟨_, hafter, hbefore⟩ := hkeys
  rw [List.nodup_cons] at hafter
  have hother {entry : Sigma fun _ : Text => Text} (hmem : entry ∈ before ++ ⟨key, value⟩ :: after)
      (hne : entry.1 ≠ key) : ¬ sameName entry.1 key := fun hsame =>
    hne (hnames entry.1 ((mem_overideHeaders_iff horder).mpr ⟨entry, hmem, rfl⟩) key
      (Finmap.mem_of_lookup_eq_some h) hsame)
  rw [List.map_append, List.map_cons, List.filter_append, List.filter_cons_of_pos (by exact sameName_self key),
    List.filter_eq_nil_iff.mpr, List.filter_eq_nil_iff.mpr]
  · rfl
  · intro header hheader
    obtain ⟨entry, hentry, rfl⟩ := List.mem_map.mp hheader
    exact hother (by simp [hentry]) fun heq => hafter.1 (List.mem_map.mpr ⟨entry, hentry, heq⟩)
  · intro header hheader
    obtain ⟨entry, hentry, rfl⟩ := List.mem_map.mp hheader
    exact hother (by simp [hentry]) (hbefore _ (List.mem_map_of_mem hentry) _ List.mem_cons_self)

/-- Headers of one name in the rewritten head are all spelled as the override is. -/
theorem HeadersOverridden.spelling (h : HeadersOverridden config order request) {header : Text × Text}
    (hheader : header ∈ (config.modifyRequest order request).headers) {key : Text}
    (hkey : key ∈ config.overideHeaders) (hsame : sameName header.1 key) : header.1 = key := by
  obtain ⟨value, hvalue⟩ := Finmap.mem_iff.mp hkey
  obtain ⟨name, honce⟩ := h.once key value hvalue
  have hlisted : (key, value) ∈ (config.modifyRequest order request).headers :=
    List.mem_append_right _ (List.mem_map.mpr ⟨_, (horder.mem_iff ⟨key, value⟩).mpr hvalue, rfl⟩)
  have honly {header : Text × Text} (hmem : header ∈ (config.modifyRequest order request).headers)
      (hsame : sameName header.1 key) : header = (name, value) := by
    have hfilter : header ∈ (config.modifyRequest order request).headers.filter
        (fun header => sameName header.1 key) := List.mem_filter.mpr ⟨hmem, hsame⟩
    rwa [honce, List.mem_singleton] at hfilter
  calc
    header.1 = name := congrArg Prod.fst (honly hheader hsame)
    _ = key := (congrArg Prod.fst (honly hlisted (sameName_self key))).symm

/-- An override is complete exactly when no other spelling of its name is around. -/
theorem headersOverridden_iff :
    HeadersOverridden config order request ↔ SpelledAlike config request ∧ DistinctNames config := by
  constructor
  · intro h
    refine ⟨fun header hheader key hkey hsame => ?_, fun a ha b hb hsame => ?_⟩
    · by_contra hnot
      have hkept : header ∈ (config.modifyRequest order request).headers :=
        List.mem_append_left _ (List.mem_filter.mpr ⟨hheader, decide_eq_true hnot⟩)
      exact hnot (h.spelling horder hkept hkey hsame ▸ hkey)
    · obtain ⟨entry, hentry, rfl⟩ := (mem_overideHeaders_iff horder).mp ha
      have hwritten : (entry.1, entry.2) ∈ (config.modifyRequest order request).headers :=
        List.mem_append_right _ (List.mem_map_of_mem hentry)
      exact h.spelling horder hwritten hb hsame
  · intro h
    obtain ⟨hspelled, hnames⟩ := h
    refine ⟨fun key value hvalue => ⟨key, ?_⟩, others_modifyRequest horder, rfl, rfl⟩
    have hkept : (request.headers.filter (fun header => decide (header.1 ∉ config.overideHeaders))).filter
        (fun header => sameName header.1 key) = [] := by
      rw [List.filter_eq_nil_iff]
      intro header hheader hsame
      obtain ⟨hheader, hnot⟩ := List.mem_filter.mp hheader
      exact of_decide_eq_true hnot
        (hspelled header hheader key (Finmap.mem_of_lookup_eq_some hvalue) hsame)
    rw [HttpProxyConfig.modifyRequest, List.filter_append, hkept, filter_order horder hnames hvalue]
    rfl

end enumerated

/-- The gateway in front of a browser. -/
def hostOverride : HttpProxyConfig :=
  ((HttpProxyConfig.new "127.0.0.1:9222".toList).withHeaderOverride "Host".toList
    "127.0.0.1:9222".toList).withPathOverride (.replace "/devtools/browser/1".toList)

def hostOrder : List (Sigma fun _ : Text => Text) := [⟨"Host".toList, "127.0.0.1:9222".toList⟩]

theorem headersOverridden_iff_host :
    HeadersOverridden hostOverride hostOrder ⟨[], [], [], [("Host".toList, "a".toList)]⟩ ↔
      SpelledAlike hostOverride ⟨[], [], [], [("Host".toList, "a".toList)]⟩ ∧ DistinctNames hostOverride :=
  headersOverridden_iff rfl

/-- A client that spells the name in lower case keeps its own header beside the override. -/
theorem lowercaseHost_survives : ∃ request,
    Request.new "GET / HTTP/1.1\r\nhost: evil\r\n\r\n".toList = .ok request ∧
      FiniteMap.Enumerates hostOrder hostOverride.overideHeaders ∧
      ¬ HeadersOverridden hostOverride hostOrder request := by
  refine ⟨⟨"GET".toList, "/".toList, "HTTP/1.1".toList, [("host".toList, "evil".toList)]⟩,
    by decide +kernel, rfl, fun h => ?_⟩
  obtain ⟨name, hname⟩ := h.once "Host".toList "127.0.0.1:9222".toList (by decide +kernel)
  have hlength := congrArg List.length hname
  rw [List.length_singleton] at hlength
  exact absurd hlength (by decide +kernel)

end WayPoint.Gateway
