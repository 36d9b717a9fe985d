import WayPoint.Manager.Applied

/-! Descriptions and stores without their times, and that the times a request carries decide
nothing else. -/
namespace WayPoint.Manager
open Foundations SetTimestamp

variable {s u : InnerService}

/-- A description without its times. -/
def InstanceDescription.untimed (d : InstanceDescription) : InstanceDescription :=
  let untimedLink (r : Relationship) : Relationship := { r with timestampMs := none }
  { d with
    createdTimestampMs := none
    killInstanceRequest := d.killInstanceRequest.map ({ · with timestampMs := none })
    services := d.services.map ({ · with timestampMs := none })
    children := d.children.map (fun c => ⟨c.children.map untimedLink⟩)
    parent := d.parent.map untimedLink
    healthCheck := d.healthCheck.map ({ · with timestampMs := none })
    proxyMetrics := d.proxyMetrics.map ({ · with timestampMs := none })
    systemMetrics := d.systemMetrics.map ({ · with timestampMs := none })
    gpuMetrics := d.gpuMetrics.map ({ · with timestampMs := none })
    llmMetrics := d.llmMetrics.map ({ · with timestampMs := none }) }

def SameButTimes (s u : InnerService) : Prop :=
  ∀ k, (s.lookup k).map InstanceDescription.untimed = (u.lookup k).map InstanceDescription.untimed

theorem SameButTimes.hasParent (h : SameButTimes s u) {c p : String} (hp : HasParent s c p) :
    HasParent u c p := by
  obtain ⟨d, hd, r, hr, ht⟩ := hp
  have hc := h c
  rw [hd] at hc
  cases hu : u.lookup c with
  | none =>
    rw [hu] at hc
    cases hc
  | some d' =>
    rw [hu] at hc
    have hparent := congrArg InstanceDescription.parent (Option.some.inj hc)
    simp only [InstanceDescription.untimed, hr, Option.map_some] at hparent
    obtain ⟨r', hr', hsame⟩ := Option.map_eq_some_iff.mp hparent.symm
    refine ⟨d', hu, r', hr', ?_⟩
    have hid : r'.instanceId = r.instanceId := by simpa using hsame
    rw [Relationship.target, hid]
    exact ht

theorem SameButTimes.mem_iff (h : SameButTimes s u) (k : String) : k ∈ s ↔ k ∈ u := by
  have hk := congrArg Option.isSome (h k)
  rw [Option.isSome_map, Option.isSome_map] at hk
  rw [← Finmap.lookup_isSome, ← Finmap.lookup_isSome, hk]

/-- What a request writes, up to times: all but the identity of the instance. -/
def InstanceDescription.content (v : InstanceDescription) : InstanceDescription :=
  { v.untimed with instanceId := none, instanceType := none }

theorem Replaced.map_eq {T : Type} [SetTimestamp T] {f : T → T}
    (hf : ∀ t v, f (setTimestamp t v) = f v) {clock clock' : Clock} {v w d d' e e' : Option T}
    (h : Replaced clock v d d') (h' : Replaced clock' w e e') (hv : v.map f = w.map f)
    (hd : d.map f = e.map f) : d'.map f = e'.map f := by
  cases v with
  | none =>
    obtain rfl : w = none := by simpa using hv.symm
    rwa [show d' = d from h, show e' = e from h']
  | some a =>
    obtain ⟨b, rfl, hab⟩ := Option.map_eq_some_iff.mp hv.symm
    obtain ⟨t, _, rfl⟩ := h
    obtain ⟨t', _, rfl⟩ := h'
    simp only [Option.map_some, hf, hab]

private theorem children_map_eq {clock clock' : Clock} {v w d d' e e' : InstanceDescription}
    (h : Updated clock v d d') (h' : Updated clock' w e e') {f : Relationship → Relationship}
    (hf : ∀ t r, f (setTimestamp t r) = f r)
    (hv : v.children.map (fun c => (⟨c.children.map f⟩ : Children)) =
      w.children.map (fun c => ⟨c.children.map f⟩))
    (hd : d.children.map (fun c => (⟨c.children.map f⟩ : Children)) =
      e.children.map (fun c => ⟨c.children.map f⟩)) :
    d'.children.map (fun c => (⟨c.children.map f⟩ : Children)) =
      e'.children.map (fun c => ⟨c.children.map f⟩) := by
  have hold : d.childList.map f = e.childList.map f := by
    unfold InstanceDescription.childList
    cases hdc : d.children <;> cases hec : e.children <;> simp_all
  have hc := h.children
  have hc' := h'.children
  cases hvc : v.children with
  | none =>
    rw [hvc] at hv hc
    have hwc : w.children = none := by simpa using hv.symm
    rw [hwc] at hc'
    rwa [show d'.children = d.children from hc, show e'.children = e.children from hc']
  | some c =>
    rw [hvc] at hv hc
    obtain ⟨c', hwc, hsame⟩ := Option.map_eq_some_iff.mp hv.symm
    rw [hwc] at hc'
    obtain ⟨added, he, hadd⟩ := hc
    obtain ⟨added', he', hadd'⟩ := hc'
    have hgiven : c'.children.map f = c.children.map f := congrArg Children.children hsame
    simp only [he, he', Option.map_some, List.map_append, hold, map_stamped hf hadd,
      map_stamped hf hadd', hgiven]

/-- Updates that write the same up to times leave the same up to times, kill requests apart. -/
theorem Updated.untimed_eq {clock clock' : Clock} {v w d d' e e' : InstanceDescription}
    (h : Updated clock v d d') (h' : Updated clock' w e e') (hv : v.content = w.content)
    (hd : d.untimed = e.untimed)
    (hkill : d'.untimed.killInstanceRequest = e'.untimed.killInstanceRequest) :
    d'.untimed = e'.untimed := by
  simp only [InstanceDescription.content, InstanceDescription.untimed,
    InstanceDescription.mk.injEq] at hv hd hkill ⊢
  obtain ⟨_, _, _, _, hv1, hv2, hv3, hv4, hv5, hv6, hv7, hv8⟩ := hv
  obtain ⟨_, hty, hid, _, hd1, hd2, hd3, hd4, hd5, hd6, hd7, hd8⟩ := hd
  exact ⟨trivial, by rw [h.instanceType, h'.instanceType, hty],
    by rw [h.instanceId, h'.instanceId, hid], hkill,
    h.services.map_eq (fun _ _ => rfl) h'.services hv1 hd1,
    children_map_eq h h' (fun _ _ => rfl) hv2 hd2,
    h.parent.map_eq (fun _ _ => rfl) h'.parent hv3 hd3,
    h.healthCheck.map_eq (fun _ _ => rfl) h'.healthCheck hv4 hd4,
    h.proxyMetrics.map_eq (fun _ _ => rfl) h'.proxyMetrics hv5 hd5,
    h.systemMetrics.map_eq (fun _ _ => rfl) h'.systemMetrics hv6 hd6,
    h.gpuMetrics.map_eq (fun _ _ => rfl) h'.gpuMetrics hv7 hd7,
    h.llmMetrics.map_eq (fun _ _ => rfl) h'.llmMetrics hv8 hd8⟩

end WayPoint.Manager
