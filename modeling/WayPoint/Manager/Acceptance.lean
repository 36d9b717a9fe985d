import WayPoint.Manager.Effect

/-! Which requests are accepted, the links and deaths an accepted one adds, and that a refused one
leaves the store as it was. -/
namespace WayPoint.Manager
open Foundations SetTimestamp

theorem Updated.mem_childList {clock : Clock} {v d d' : InstanceDescription}
    (h : Updated clock v d d') (c : String) :
    (∃ r ∈ d'.childList, r.target = some c) ↔
      (∃ r ∈ d.childList, r.target = some c) ∨ ∃ r ∈ v.childList, r.target = some c := by
  rw [← List.mem_map, ← List.mem_map, ← List.mem_map, h.childList_map (fun _ _ => rfl), List.mem_append]

theorem Updated.parent_target {clock : Clock} {v d d' : InstanceDescription}
    (h : Updated clock v d d') :
    d'.parent.bind Relationship.target =
      if v.parent.isSome then v.parent.bind Relationship.target
      else d.parent.bind Relationship.target := by
  have hp := h.parent
  cases hv : v.parent with
  | none =>
    rw [hv] at hp
    simp [show d'.parent = d.parent from hp]
  | some r =>
    rw [hv] at hp
    obtain ⟨t, _, he⟩ := hp
    rw [he]
    rfl

private theorem hasParent_iff {s : InnerService} {c p : String} {d : InstanceDescription}
    (hd : s.lookup c = some d) : HasParent s c p ↔ d.parent.bind Relationship.target = some p := by
  simp only [HasParent, hd, Option.some.injEq, exists_eq_left', Option.bind_eq_some_iff]

theorem hasChild_iff {s : InnerService} {p c : String} {d : InstanceDescription}
    (hd : s.lookup p = some d) : HasChild s p c ↔ ∃ r ∈ d.childList, r.target = some c := by
  simp only [HasChild, hd, Option.some.injEq, exists_eq_left']

/-- The link from child `c` to parent `p` that a request of `x` asks for, from either end. -/
def NewLink (x : InstanceId) (request : InstanceDescription) (c p : String) : Prop :=
  (c = x.instanceId ∧ request.parent.bind Relationship.target = some p) ∨
    (p = x.instanceId ∧ some c ∈ request.childList.map Relationship.target)

private theorem backLink_target (x : InstanceId) (p : String) :
    (backLink x).target = some p ↔ p = x.instanceId := by
  simp only [Relationship.target, backLink, Option.map_some, Option.some.injEq]
  exact eq_comm

private theorem incoming_parent_target {s : InnerService} {x : InstanceId} {request : InstanceDescription}
    (hl : Linkable s x request) (c p : String) :
    (incoming x request c).parent.bind Relationship.target = some p ↔ NewLink x request c p := by
  by_cases hc : c = x.instanceId
  · have hne : ¬ (p = c ∧ some c ∈ request.childList.map Relationship.target) := by
      intro h
      obtain ⟨_, hm⟩ := h
      obtain ⟨r, hr, ht⟩ := List.mem_map.mp hm
      obtain ⟨k, hk, _, hkx⟩ := hl.child r hr
      rw [ht, hc] at hk
      exact hkx (Option.some.inj hk).symm
    subst hc
    simp only [incoming_self, NewLink, true_and]
    exact (or_iff_left hne).symm
  · rw [incoming_other hc, NewLink]
    by_cases hm : some c ∈ request.childList.map Relationship.target
    · simp only [hc, false_and, false_or, hm, and_true]
      exact backLink_target x p
    · simp [hc, hm]

theorem incoming_child_target {s : InnerService} {x : InstanceId} {request : InstanceDescription}
    (hl : Linkable s x request) (p c : String) :
    (∃ r ∈ (incoming x request p).childList, r.target = some c) ↔ NewLink x request c p := by
  by_cases hp : p = x.instanceId
  · have hne : ¬ (c = p ∧ request.parent.bind Relationship.target = some p) := by
      intro h
      obtain ⟨_, hb⟩ := h
      obtain ⟨r, hr, ht⟩ := Option.bind_eq_some_iff.mp hb
      obtain ⟨k, hk, _, hkx⟩ := hl.parent r hr
      rw [ht, hp] at hk
      exact hkx (Option.some.inj hk).symm
    subst hp
    simp only [incoming_self, NewLink, true_and, List.mem_map]
    exact (or_iff_right hne).symm
  · rw [incoming_other hp, NewLink]
    by_cases hb : request.parent.bind Relationship.target = some p
    · simp only [hb, hp, and_true, false_and, or_false]
      simpa [InstanceDescription.childList] using backLink_target x c
    · simp [hb, hp, InstanceDescription.childList]

section written
variable {s s' : InnerService} {clock : Clock} {x : InstanceId} {request : InstanceDescription}

theorem hasParent_written (hw : FiniteMap.Changes (fun y => Updated clock (incoming x request y)) s s')
    (ha : Accepts s x request) (c p : String) :
    HasParent s' c p ↔ HasParent s c p ∨ NewLink x request c p := by
  have hlink := incoming_parent_target ha.linkable c p
  cases hs : s.lookup c with
  | none =>
    have hs' := hw.absent hs
    constructor
    · intro h
      obtain ⟨d, hd, _⟩ := h
      rw [hs'] at hd
      cases hd
    · intro hcase
      rcases hcase with ⟨d, hd, _⟩ | ⟨rfl, _⟩ | ⟨_, hm⟩
      · rw [hs] at hd
        cases hd
      · obtain ⟨d, hd, _⟩ := ha.alive
        rw [hs] at hd
        cases hd
      · obtain ⟨r, hr, ht⟩ := List.mem_map.mp hm
        obtain ⟨k, hk, hks, _⟩ := ha.child r hr
        rw [ht] at hk
        cases hk
        exact absurd hs (by rwa [Finmap.lookup_eq_none, not_not])
  | some d =>
    obtain ⟨d', hd', hu⟩ := hw.present hs
    rw [hasParent_iff hd', hasParent_iff hs, hu.parent_target, ← hlink]
    cases hv : (incoming x request c).parent with
    | none => simp
    | some r =>
      -- the request names a parent for `c` only when `c` had none
      have hnone : d.parent.bind Relationship.target ≠ some p := by
        intro hp
        have hold : HasParent s c p := (hasParent_iff hs).mpr hp
        by_cases hc : c = x.instanceId
        · subst hc
          rw [incoming_self] at hv
          obtain ⟨k, _, _, _, hfree⟩ := ha.parent r hv
          exact hfree p hold
        · rw [incoming_other hc] at hv
          simp only [Option.ite_none_right_eq_some] at hv
          obtain ⟨q, hq, ht⟩ := List.mem_map.mp hv.1
          obtain ⟨k, hk, _, _, hfree⟩ := ha.child q hq
          rw [ht] at hk
          cases hk
          exact hfree p hold
      simp [hnone]

theorem hasChild_written (hw : FiniteMap.Changes (fun y => Updated clock (incoming x request y)) s s')
    (ha : Accepts s x request) (p c : String) :
    HasChild s' p c ↔ HasChild s p c ∨ NewLink x request c p := by
  cases hs : s.lookup p with
  | none =>
    have hs' := hw.absent hs
    constructor
    · intro h
      obtain ⟨d, hd, _⟩ := h
      rw [hs'] at hd
      cases hd
    · intro hcase
      rcases hcase with ⟨d, hd, _⟩ | ⟨rfl, hb⟩ | ⟨rfl, _⟩
      · rw [hs] at hd
        cases hd
      · obtain ⟨r, hr, ht⟩ := Option.bind_eq_some_iff.mp hb
        obtain ⟨k, hk, ⟨d, hd, _⟩, _⟩ := ha.parent r hr
        rw [ht] at hk
        cases hk
        rw [hs] at hd
        cases hd
      · obtain ⟨d, hd, _⟩ := ha.alive
        rw [hs] at hd
        cases hd
  | some d =>
    obtain ⟨d', hd', hu⟩ := hw.present hs
    rw [hasChild_iff hd', hasChild_iff hs, hu.mem_childList, incoming_child_target ha.linkable]

end written

private theorem validateRelationship_eq_true {parent child : InstanceDescription} :
    validateRelationship parent child = .ok true ↔ parent.instanceId ≠ child.instanceId ∧
      parent.killInstanceRequest = none ∧ child.parent = none := by
  unfold validateRelationship
  by_cases h : parent.instanceId = child.instanceId
  · simp [h]
  · cases hk : parent.killInstanceRequest <;> cases hp : child.parent <;> simp [h]

private theorem no_parent_iff {s : InnerService} (hs : Named s) {x : String}
    {d : InstanceDescription} (hd : s.lookup x = some d) :
    (∀ p, ¬ HasParent s x p) ↔ d.parent = none := by
  simp only [hasParent_iff hd]
  cases hp : d.parent with
  | none => simp
  | some r =>
    obtain ⟨p, ht⟩ := hs.parent hd hp
    simp only [reduceCtorEq, iff_false]
    exact fun h => h p ht

/-- The source compares ids inside descriptions; on named stores these are the map keys. -/
theorem validateRelationship_iff {s : InnerService} (hs : Named s) {p c : String}
    {parent child : InstanceDescription} (hp : s.lookup p = some parent)
    (hc : s.lookup c = some child) :
    validateRelationship parent child = .ok true ↔
      Alive s p ∧ p ≠ c ∧ ∀ q, ¬ HasParent s c q := by
  rw [validateRelationship_eq_true, no_parent_iff hs hc, hs.key hp, hs.key hc]
  simp only [Alive, hp, Option.some.injEq, exists_eq_left', ne_eq, InstanceId.mk.injEq]
  tauto

theorem validateParent_iff {s : InnerService} (hs : Named s) {x : String}
    {d : InstanceDescription} (hd : s.lookup x = some d) (parent : Option Relationship) :
    validateParent s d parent = .ok true ↔ ∀ r ∈ parent, ∃ k, r.target = some k ∧ Alive s k ∧
      k ≠ x ∧ ∀ p, ¬ HasParent s x p := by
  cases parent with
  | none => simp [validateParent]
  | some r =>
    simp only [validateParent, Option.mem_def, Option.some.injEq, forall_eq', getInstanceId_bind_eq_ok_iff]
    refine exists_congr fun k => and_congr_right fun _ => ?_
    cases hk : s.lookup k with
    | none => simp [Alive, hk]
    | some p => exact validateRelationship_iff hs hk hd

theorem validateChildren_iff {s : InnerService} (hs : Named s) {x : String}
    {d : InstanceDescription} (hd : s.lookup x = some d) (hx : Alive s x)
    (children : List Relationship) :
    validateChildren s d children = .ok true ↔ ∀ r ∈ children, ∃ k, r.target = some k ∧ k ∈ s ∧
      k ≠ x ∧ ∀ p, ¬ HasParent s k p := by
  induction children with
  | nil => simp [validateChildren]
  | cons r rest ih =>
    rw [validateChildren, List.forall_mem_cons, ← ih, getInstanceId_bind_eq_ok_iff, ← exists_and_right]
    refine exists_congr fun k => ?_
    rw [and_assoc]
    refine and_congr_right fun _ => ?_
    cases hc : s.lookup k with
    | none => simp [Finmap.mem_iff, hc]
    | some c =>
      have hmem : k ∈ s := Finmap.mem_of_lookup_eq_some hc
      have hlinkable : validateRelationship d c = .ok true ↔ k ∈ s ∧ k ≠ x ∧ ∀ p, ¬ HasParent s k p := by
        rw [validateRelationship_iff hs hd hc, ne_comm, and_iff_right hx, and_iff_right hmem]
      rw [← hlinkable]
      rcases hv : validateRelationship d c with e | _ | _ <;> simp [hv, bind, Except.bind]

/-- A request `apply_to_instance_description` carries out, for the instance `x`. -/
structure Accepted (s : InnerService) (x : InstanceId) (request : InstanceDescription) : Prop
    extends Accepts s x request where
  instanceId : request.instanceId = some x
  createdTimestampMs : request.createdTimestampMs = none
  instanceType : request.instanceType = none

theorem validateLinks_iff {s : InnerService} (hs : Named s) {x : InstanceId}
    {request d : InstanceDescription} (hd : s.lookup x.instanceId = some d)
    (hx : Alive s x.instanceId) :
    validateLinks s d request = .ok true ↔ Accepts s x request := by
  have hiff : validateLinks s d request = .ok true ↔
      validateParent s d request.parent = .ok true ∧
        validateChildren s d request.childList = .ok true := by
    unfold validateLinks
    rcases validateParent s d request.parent with e | _ | _ <;> simp [bind, Except.bind, pure, Except.pure]
  rw [hiff, validateParent_iff hs hd, validateChildren_iff hs hd hx]
  exact ⟨fun h => ⟨hx, h.1, h.2⟩, fun h => ⟨h.parent, h.child⟩⟩

theorem apply_of_shape {request : InstanceDescription} {x : InstanceId}
    (hi : request.instanceId = some x) (hc : request.createdTimestampMs = none)
    (ht : request.instanceType = none) {s : InnerService} {d : InstanceDescription}
    (hd : s.lookup x.instanceId = some d) (hk : d.killInstanceRequest = none) (clock : Clock) :
    (applyToInstanceDescription request).exec s clock =
      match validateLinks s d request with
      | .error e => (.error e, s, clock)
      | .ok false => (.ok false, s, clock)
      | .ok true => (do commitUpdate x request; return true : Locked Bool).exec s clock := by
  unfold applyToInstanceDescription
  rw [hi, hc, ht]
  simp only []
  rw [exec_bind, exec_readStore]
  simp only [hd, hk, Option.isSome_none, Bool.false_eq_true, if_false]
  rw [exec_bind, exec_lift]
  rcases validateLinks s d request with e | _ | _ <;> rfl

theorem apply_of_not_alive {request : InstanceDescription} {x : InstanceId}
    (hi : request.instanceId = some x) (hc : request.createdTimestampMs = none)
    (ht : request.instanceType = none) {s : InnerService} (hx : ¬ Alive s x.instanceId)
    (clock : Clock) :
    (applyToInstanceDescription request).exec s clock = (.ok false, s, clock) := by
  unfold applyToInstanceDescription
  rw [hi, hc, ht]
  simp only []
  rw [exec_bind, exec_readStore]
  cases hd : s.lookup x.instanceId with
  | none => simp only [hd, exec_pure]
  | some d =>
    have hk : d.killInstanceRequest.isSome = true := by
      rw [Option.isSome_iff_ne_none]
      exact fun hn => hx ⟨d, hd, hn⟩
    simp only [hd, hk, if_true, exec_pure]

/-- Whatever is not accepted leaves the store as it was. -/
theorem apply_refused {s : InnerService} (hs : Named s) {request : InstanceDescription}
    (h : ∀ x, ¬ Accepted s x request) (clock : Clock) :
    ∃ r, r ≠ .ok true ∧ (applyToInstanceDescription request).exec s clock = (r, s, clock) := by
  cases hi : request.instanceId with
  | none => exact ⟨.error invalidRequest, by simp, by simp [applyToInstanceDescription, hi]⟩
  | some x =>
    cases hc : request.createdTimestampMs with
    | some _ => exact ⟨.error invalidRequest, by simp, by simp [applyToInstanceDescription, hi, hc]⟩
    | none =>
      cases ht : request.instanceType with
      | some _ =>
        exact ⟨.error invalidRequest, by simp, by simp [applyToInstanceDescription, hi, hc, ht]⟩
      | none =>
        by_cases hx : Alive s x.instanceId
        · obtain ⟨d, hd, hk⟩ := id hx
          have hv : validateLinks s d request ≠ .ok true := fun hv =>
            h x ⟨(validateLinks_iff hs hd hx).mp hv, hi, hc, ht⟩
          rw [apply_of_shape hi hc ht hd hk]
          rcases hr : validateLinks s d request with e | _ | _
          · exact ⟨_, by simp, rfl⟩
          · exact ⟨_, by simp, rfl⟩
          · exact absurd hr hv
        · exact ⟨.ok false, by simp, apply_of_not_alive hi hc ht hx clock⟩

theorem apply_of_accepted {s : InnerService} (hs : Named s) {x : InstanceId}
    {request : InstanceDescription} (h : Accepted s x request) (clock : Clock) :
    (applyToInstanceDescription request).exec s clock =
      (do commitUpdate x request; return true : Locked Bool).exec s clock := by
  obtain ⟨d, hd, hk⟩ := id h.alive
  rw [apply_of_shape h.instanceId h.createdTimestampMs h.instanceType hd hk,
    (validateLinks_iff hs hd h.alive).mpr h.toAccepts]

end WayPoint.Manager
