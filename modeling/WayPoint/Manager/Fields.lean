import WayPoint.Manager.Links

/-! The nine field updates of one request: every field keeps its value or takes the request's,
stamped with a clock reading. -/
namespace WayPoint.Manager
open SetTimestamp

section fields
variable (d : InstanceDescription) (clock : Clock)

@[simp] theorem updateServices_run (v : Option Services) : updateInstanceDescription d v clock =
    ({ d with services := stampInto clock d.services v }, clock.after v) := by
  cases v <;> rfl

@[simp] theorem updateHealthCheck_run (v : Option HealthCheck) : updateInstanceDescription d v clock =
    ({ d with healthCheck := stampInto clock d.healthCheck v }, clock.after v) := by
  cases v <;> rfl

@[simp] theorem updateParent_run (v : Option Relationship) : updateInstanceDescription d v clock =
    ({ d with parent := stampInto clock d.parent v }, clock.after v) := by
  cases v <;> rfl

@[simp] theorem updateKill_run (v : Option KillInstanceRequest) : updateInstanceDescription d v clock =
    ({ d with killInstanceRequest := stampInto clock d.killInstanceRequest v }, clock.after v) := by
  cases v <;> rfl

@[simp] theorem updateProxyMetrics_run (v : Option ProxyMetrics) : updateInstanceDescription d v clock =
    ({ d with proxyMetrics := stampInto clock d.proxyMetrics v }, clock.after v) := by
  cases v <;> rfl

@[simp] theorem updateSystemMetrics_run (v : Option SystemMetrics) : updateInstanceDescription d v clock =
    ({ d with systemMetrics := stampInto clock d.systemMetrics v }, clock.after v) := by
  cases v <;> rfl

@[simp] theorem updateGpuMetrics_run (v : Option GpuMetrics) : updateInstanceDescription d v clock =
    ({ d with gpuMetrics := stampInto clock d.gpuMetrics v }, clock.after v) := by
  cases v <;> rfl

@[simp] theorem updateLlmMetrics_run (v : Option LlmMetrics) : updateInstanceDescription d v clock =
    ({ d with llmMetrics := stampInto clock d.llmMetrics v }, clock.after v) := by
  cases v <;> rfl

/-- The children an update appends, all stamped with one reading. -/
def extendChildren (v : Option Children) : Option Children :=
  match v with
  | none => d.children
  | some c => some ⟨d.childList ++ c.children.map (setTimestamp clock.head)⟩

@[simp] theorem updateChildren_run (v : Option Children) : updateInstanceDescription d v clock =
    ({ d with children := extendChildren d clock v }, clock.after v) := by
  cases v <;> rfl

end fields

/-- All an update may do to the fields other than the kill request: `v` holds the values written,
unset where nothing is. -/
structure Updated (clock : Clock) (v d d' : InstanceDescription) : Prop where
  instanceId : d'.instanceId = d.instanceId
  instanceType : d'.instanceType = d.instanceType
  createdTimestampMs : d'.createdTimestampMs = d.createdTimestampMs
  services : Replaced clock v.services d.services d'.services
  healthCheck : Replaced clock v.healthCheck d.healthCheck d'.healthCheck
  parent : Replaced clock v.parent d.parent d'.parent
  children : match v.children with
    | none => d'.children = d.children
    | some c => ∃ added, d'.children = some ⟨d.childList ++ added⟩ ∧
        List.Forall₂ (fun r r' => ∃ t ∈ clock, r' = setTimestamp t r) c.children added
  proxyMetrics : Replaced clock v.proxyMetrics d.proxyMetrics d'.proxyMetrics
  systemMetrics : Replaced clock v.systemMetrics d.systemMetrics d'.systemMetrics
  gpuMetrics : Replaced clock v.gpuMetrics d.gpuMetrics d'.gpuMetrics
  llmMetrics : Replaced clock v.llmMetrics d.llmMetrics d'.llmMetrics

/-- The children of an update come after the old ones, stamped. -/
theorem Updated.childList {clock : Clock} {v d d' : InstanceDescription} (h : Updated clock v d d') :
    ∃ added, d'.childList = d.childList ++ added ∧
      List.Forall₂ (fun r r' => ∃ t ∈ clock, r' = setTimestamp t r) v.childList added := by
  have hc := h.children
  cases hv : v.children with
  | none =>
    rw [hv] at hc
    refine ⟨[], ?_, ?_⟩
    · rw [InstanceDescription.childList, show d'.children = d.children from hc, List.append_nil]
      rfl
    · rw [InstanceDescription.childList, hv]
      exact .nil
  | some cs =>
    rw [hv] at hc
    obtain ⟨added, he, hadd⟩ := hc
    refine ⟨added, by rw [InstanceDescription.childList, he], ?_⟩
    rw [InstanceDescription.childList, hv]
    exact hadd

theorem Updated.childList_mem {clock : Clock} {v d d' : InstanceDescription}
    (h : Updated clock v d d') {r : Relationship} (hr : r ∈ d'.childList) :
    r ∈ d.childList ∨ ∃ q ∈ v.childList, ∃ t ∈ clock, r = setTimestamp t q := by
  obtain ⟨added, he, hadd⟩ := h.childList
  rw [he] at hr
  rcases List.mem_append.mp hr with hr | hr
  · exact Or.inl hr
  · obtain ⟨i, hi, rfl⟩ := List.mem_iff_getElem.mp hr
    have hlen := hadd.length_eq
    obtain ⟨t, ht, hg⟩ := List.Forall₂.get hadd (by omega) hi
    exact Or.inr ⟨_, List.getElem_mem _, t, ht, hg⟩

/-- What a stamp leaves alone is the same of a stamped list. -/
theorem map_stamped {β : Type} {f : Relationship → β} (hf : ∀ t r, f (setTimestamp t r) = f r)
    {clock : Clock} {l added : List Relationship}
    (h : List.Forall₂ (fun r r' => ∃ t ∈ clock, r' = setTimestamp t r) l added) :
    added.map f = l.map f := by
  induction h with
  | nil => rfl
  | cons hab _ ih =>
    obtain ⟨t, _, rfl⟩ := hab
    rw [List.map_cons, List.map_cons, hf, ih]

theorem Updated.childList_map {β : Type} {f : Relationship → β}
    (hf : ∀ t r, f (setTimestamp t r) = f r) {clock : Clock} {v d d' : InstanceDescription}
    (h : Updated clock v d d') : d'.childList.map f = d.childList.map f ++ v.childList.map f := by
  obtain ⟨added, he, hadd⟩ := h.childList
  rw [he, List.map_append, map_stamped hf hadd]

theorem updateFields_run (request d : InstanceDescription) (clock : Clock) :
    ∃ d' later, updateFields request d clock = (d', later) ∧ Later clock later ∧
      Updated clock request d d' ∧
      Replaced clock request.killInstanceRequest d.killInstanceRequest d'.killInstanceRequest := by
  let c1 := clock.after request.services
  let c2 := c1.after request.healthCheck
  let c3 := c2.after request.parent
  let c4 := c3.after request.children
  let c5 := c4.after request.killInstanceRequest
  let c6 := c5.after request.proxyMetrics
  let c7 := c6.after request.systemMetrics
  let c8 := c7.after request.gpuMetrics
  have h1 : Later clock c1 := .after _ _
  have h2 : Later clock c2 := h1.trans (.after _ _)
  have h3 : Later clock c3 := h2.trans (.after _ _)
  have h4 : Later clock c4 := h3.trans (.after _ _)
  have h5 : Later clock c5 := h4.trans (.after _ _)
  have h6 : Later clock c6 := h5.trans (.after _ _)
  have h7 : Later clock c7 := h6.trans (.after _ _)
  have h8 : Later clock c8 := h7.trans (.after _ _)
  refine ⟨{ d with
      services := stampInto clock d.services request.services
      healthCheck := stampInto c1 d.healthCheck request.healthCheck
      parent := stampInto c2 d.parent request.parent
      children := extendChildren d c3 request.children
      killInstanceRequest := stampInto c4 d.killInstanceRequest request.killInstanceRequest
      proxyMetrics := stampInto c5 d.proxyMetrics request.proxyMetrics
      systemMetrics := stampInto c6 d.systemMetrics request.systemMetrics
      gpuMetrics := stampInto c7 d.gpuMetrics request.gpuMetrics
      llmMetrics := stampInto c8 d.llmMetrics request.llmMetrics }, c8.after request.llmMetrics, ?_, h8.trans (.after _ _), ⟨rfl, rfl, rfl,
    (Later.refl clock).replaced _ _, h1.replaced _ _, h2.replaced _ _, ?_, h5.replaced _ _,
    h6.replaced _ _, h7.replaced _ _, h8.replaced _ _⟩, h4.replaced _ _⟩
  · simp only [updateFields, bind, StateT.bind, updateServices_run, updateHealthCheck_run,
      updateParent_run, updateChildren_run, updateKill_run, updateProxyMetrics_run,
      updateSystemMetrics_run, updateGpuMetrics_run, updateLlmMetrics_run]
    rfl
  · cases request.children with
    | none => rfl
    | some c =>
      refine ⟨_, rfl, ?_⟩
      rw [List.forall₂_map_right_iff]
      exact List.forall₂_same.mpr fun r _ => ⟨_, h3.head_mem, rfl⟩

end WayPoint.Manager
