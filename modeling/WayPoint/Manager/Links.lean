import WayPoint.Foundations.Exceptions
import WayPoint.Foundations.Worklist
import WayPoint.Manager.Handlers

/-! What a store says about parents, children and deaths, and the invariants kept on them. -/
namespace WayPoint.Manager
open Foundations

/-- The id a relationship carries, when it carries one. -/
def Relationship.target (r : Relationship) : Option String :=
  r.instanceId.map InstanceId.instanceId

theorem Relationship.target_eq_some {r : Relationship} {x : String} :
    r.target = some x ↔ r.instanceId = some ⟨x⟩ := by
  rcases r with ⟨t, _ | ⟨⟨i⟩⟩⟩
  · simp [target]
  · simp [target]

/-- `c`'s description names `p` as its parent. -/
def HasParent (s : InnerService) (c p : String) : Prop :=
  ∃ d, s.lookup c = some d ∧ ∃ r, d.parent = some r ∧ r.target = some p

/-- `p`'s children list contains `c`. -/
def HasChild (s : InnerService) (p c : String) : Prop :=
  ∃ d, s.lookup p = some d ∧ ∃ r ∈ d.childList, r.target = some c

/-- The instances with a kill request. -/
def dead (s : InnerService) : Set String :=
  {x | ∃ d, s.lookup x = some d ∧ d.killInstanceRequest.isSome}

def Alive (s : InnerService) (x : String) : Prop :=
  ∃ d, s.lookup x = some d ∧ d.killInstanceRequest = none

instance (s : InnerService) (c p : String) : Decidable (HasParent s c p) :=
  inferInstanceAs (Decidable (∃ d ∈ s.lookup c, ∃ r ∈ d.parent, r.target = some p))

instance (s : InnerService) (p c : String) : Decidable (HasChild s p c) :=
  inferInstanceAs (Decidable (∃ d ∈ s.lookup p, ∃ r ∈ d.childList, r.target = some c))

instance (s : InnerService) (x : String) : Decidable (x ∈ dead s) :=
  inferInstanceAs (Decidable (∃ d ∈ s.lookup x, d.killInstanceRequest.isSome))

instance (s : InnerService) (x : String) : Decidable (Alive s x) :=
  inferInstanceAs (Decidable (∃ d ∈ s.lookup x, d.killInstanceRequest = none))

/-- Both copies of every link agree and name registered instances other than their owner. -/
structure WellLinked (s : InnerService) : Prop where
  key : ∀ {k d}, s.lookup k = some d → d.instanceId = some ⟨k⟩
  parent : ∀ {k d r}, s.lookup k = some d → d.parent = some r →
    ∃ p, r.target = some p ∧ p ∈ s ∧ p ≠ k
  child : ∀ {k d r}, s.lookup k = some d → r ∈ d.childList →
    ∃ c, r.target = some c ∧ c ∈ s ∧ c ≠ k
  agree : ∀ c p, HasParent s c p ↔ HasChild s p c

/-- Descriptions carry the id they are stored under, and links carry the id of someone. -/
structure Named (s : InnerService) : Prop where
  key : ∀ {k d}, s.lookup k = some d → d.instanceId = some ⟨k⟩
  parent : ∀ {k d r}, s.lookup k = some d → d.parent = some r → ∃ p, r.target = some p
  child : ∀ {k d r}, s.lookup k = some d → r ∈ d.childList → ∃ c, r.target = some c

theorem WellLinked.named {s : InnerService} (h : WellLinked s) : Named s where
  key := h.key
  parent hd hr := (h.parent hd hr).imp fun _ hp => hp.1
  child hd hr := (h.child hd hr).imp fun _ hc => hc.1

/-- Every timestamp field of a stored description that the server sets is set. -/
structure InstanceDescription.Stamped (d : InstanceDescription) : Prop where
  created : d.createdTimestampMs.isSome
  kill : ∀ k ∈ d.killInstanceRequest, k.timestampMs.isSome
  services : ∀ v ∈ d.services, v.timestampMs.isSome
  parent : ∀ r ∈ d.parent, r.timestampMs.isSome
  children : ∀ r ∈ d.childList, r.timestampMs.isSome
  healthCheck : ∀ v ∈ d.healthCheck, v.timestampMs.isSome
  proxyMetrics : ∀ v ∈ d.proxyMetrics, v.timestampMs.isSome
  systemMetrics : ∀ v ∈ d.systemMetrics, v.timestampMs.isSome
  gpuMetrics : ∀ v ∈ d.gpuMetrics, v.timestampMs.isSome
  llmMetrics : ∀ v ∈ d.llmMetrics, v.timestampMs.isSome

/-- The children of the dead are dead. -/
def DeathClosed (s : InnerService) : Prop := Closed (HasChild s) (dead s)

/-- What every store between two sections satisfies while no registration is rolled back. -/
structure Consistent (s : InnerService) : Prop extends WellLinked s where
  deathClosed : DeathClosed s
  stamped : ∀ {k d}, s.lookup k = some d → d.Stamped
  typed : ∀ {k d}, s.lookup k = some d → ∃ t : InstanceType, d.instanceType = some t.toI32

theorem mem_dead_iff {s : InnerService} {x : String} {d : InstanceDescription}
    (h : s.lookup x = some d) : x ∈ dead s ↔ d.killInstanceRequest.isSome := by
  constructor
  · intro hdead
    obtain ⟨d', hd', hk⟩ := hdead
    rw [h] at hd'
    cases hd'
    exact hk
  · exact fun hk => ⟨d, h, hk⟩

theorem HasParent.unique {s : InnerService} {c p q : String} (hp : HasParent s c p)
    (hq : HasParent s c q) : p = q := by
  obtain ⟨d, hd, r, hr, ht⟩ := hp
  obtain ⟨d', hd', r', hr', ht'⟩ := hq
  rw [hd] at hd'
  cases hd'
  rw [hr] at hr'
  cases hr'
  rw [ht] at ht'
  exact Option.some.inj ht'

theorem Alive.notMem_dead {s : InnerService} {x : String} (h : Alive s x) : x ∉ dead s := by
  obtain ⟨d, hd, hk⟩ := h
  rw [mem_dead_iff hd, hk]
  simp

theorem empty_consistent : Consistent ∅ where
  key h := by simp at h
  parent h := by simp at h
  child h := by simp at h
  agree c p := by simp [HasParent, HasChild]
  deathClosed := by
    intro x y hx
    obtain ⟨d, hd, _⟩ := hx
    simp at hd
  stamped h := by simp at h
  typed h := by simp at h

theorem getInstanceId_of_target {r : Relationship} {x : String} (h : r.target = some x) :
    getInstanceId r.instanceId = .ok (⟨x⟩ : InstanceId) := by
  rw [Relationship.target_eq_some.mp h]
  rfl

theorem target_of_getInstanceId {r : Relationship} {id : InstanceId}
    (h : getInstanceId r.instanceId = .ok id) : r.target = some id.instanceId := by
  rcases r with ⟨t, _ | i⟩
  · cases h
  · cases h
    rfl

theorem getInstanceId_bind_eq_ok_iff {β : Type} {r : Relationship} {f : InstanceId → Except Status β} {b : β} :
    (getInstanceId r.instanceId >>= f) = .ok b ↔ ∃ k, r.target = some k ∧ f ⟨k⟩ = .ok b := by
  rw [bind_eq_ok_iff]
  constructor
  · intro h
    obtain ⟨id, hid, hf⟩ := h
    exact ⟨id.instanceId, target_of_getInstanceId hid, hf⟩
  · intro h
    obtain ⟨k, hk, hf⟩ := h
    exact ⟨⟨k⟩, getInstanceId_of_target hk, hf⟩

/-- The listed relationships all carry ids of registered instances. -/
def Registered (s : InnerService) (rs : List Relationship) : Prop :=
  ∀ r ∈ rs, ∃ k, r.target = some k ∧ k ∈ s

theorem Registered.of_changes {R : String → InstanceDescription → InstanceDescription → Prop}
    {s s' : InnerService} {rs : List Relationship} (h : FiniteMap.Changes R s s')
    (hr : Registered s rs) : Registered s' rs := by
  intro r hm
  obtain ⟨k, hk, hks⟩ := hr r hm
  exact ⟨k, hk, (h.mem_iff k).mpr hks⟩

end WayPoint.Manager
