import WayPoint.Manager.Acceptance

/-! What an accepted request makes of a consistent store: the fields and links it writes, and the
instances that are dead afterwards. -/
namespace WayPoint.Manager
open Foundations

variable {s s' : InnerService} {clock : Clock} {x : InstanceId} {request : InstanceDescription}

/-- The instances the request itself kills, before the cascade. -/
def killed (x : InstanceId) (request : InstanceDescription) : Set String :=
  if request.killInstanceRequest.isSome then {x.instanceId} else ∅

/-- Everything an accepted request does, as seen on the store it leaves. -/
structure Applied (clock : Clock) (x : InstanceId) (request : InstanceDescription)
    (s s' : InnerService) : Prop where
  effect : FiniteMap.Changes (Effect clock x request) s s'
  hasParent : ∀ c p, HasParent s' c p ↔ HasParent s c p ∨ NewLink x request c p
  hasChild : ∀ p c, HasChild s' p c ↔ HasChild s p c ∨ NewLink x request c p
  dead : dead s' = dead s ∪ reach (HasChild s') (killed x request)

theorem NewLink.parent_alive (ha : Accepts s x request) {c p : String} (h : NewLink x request c p) :
    Alive s p := by
  rcases h with ⟨_, hb⟩ | ⟨rfl, _⟩
  · obtain ⟨r, hr, ht⟩ := Option.bind_eq_some_iff.mp hb
    obtain ⟨k, hk, hkA, _⟩ := ha.parent r hr
    rw [ht] at hk
    cases hk
    exact hkA
  · exact ha.alive

theorem NewLink.child_mem (ha : Accepts s x request) {c p : String} (h : NewLink x request c p) :
    c ∈ s := by
  rcases h with ⟨rfl, _⟩ | ⟨_, hm⟩
  · obtain ⟨d, hd, _⟩ := ha.alive
    exact Finmap.mem_of_lookup_eq_some hd
  · obtain ⟨r, hr, ht⟩ := List.mem_map.mp hm
    obtain ⟨k, hk, hks, _⟩ := ha.child r hr
    rw [ht] at hk
    cases hk
    exact hks

theorem NewLink.ne (ha : Accepts s x request) {c p : String} (h : NewLink x request c p) :
    c ≠ p := by
  rcases h with ⟨rfl, hb⟩ | ⟨rfl, hm⟩
  · obtain ⟨r, hr, ht⟩ := Option.bind_eq_some_iff.mp hb
    obtain ⟨k, hk, _, hne, _⟩ := ha.parent r hr
    rw [ht] at hk
    cases hk
    exact hne.symm
  · obtain ⟨r, hr, ht⟩ := List.mem_map.mp hm
    obtain ⟨k, hk, _, hne, _⟩ := ha.child r hr
    rw [ht] at hk
    cases hk
    exact hne

/-- A link is only added to a child without a parent. -/
theorem NewLink.orphan (ha : Accepts s x request) {c p : String} (h : NewLink x request c p)
    (q : String) : ¬ HasParent s c q := by
  rcases h with ⟨rfl, hb⟩ | ⟨_, hm⟩
  · obtain ⟨r, hr, _⟩ := Option.bind_eq_some_iff.mp hb
    obtain ⟨k, _, _, _, hfree⟩ := ha.parent r hr
    exact hfree q
  · obtain ⟨r, hr, ht⟩ := List.mem_map.mp hm
    obtain ⟨k, hk, _, _, hfree⟩ := ha.child r hr
    rw [ht] at hk
    cases hk
    exact hfree q

theorem LinksWritten.dead_iff {y : String} {d d' : InstanceDescription}
    (h : LinksWritten clock x request y d d') :
    d'.killInstanceRequest.isSome ↔ d.killInstanceRequest.isSome ∨ y ∈ killed x request := by
  have hk := h.2
  by_cases hy : y = x.instanceId
  · subst hy
    rw [incoming_self] at hk
    cases hr : request.killInstanceRequest with
    | none =>
      rw [hr] at hk
      simp [show d'.killInstanceRequest = _ from hk, killed, hr]
    | some v =>
      rw [hr] at hk
      obtain ⟨t, _, he⟩ := hk
      simp [he, killed, hr]
  · rw [incoming_other hy] at hk
    rw [show d'.killInstanceRequest = _ from hk]
    refine (or_iff_left fun hm => ?_).symm
    unfold killed at hm
    split at hm
    · exact hy hm
    · exact hm

theorem dead_linksWritten (hx : x.instanceId ∈ s)
    (h : FiniteMap.Changes (LinksWritten clock x request) s s') :
    dead s' = dead s ∪ killed x request := by
  ext y
  cases hy : s.lookup y with
  | none =>
    have hne : y ∉ killed x request := by
      unfold killed
      split
      · rintro rfl
        exact absurd hy (by rwa [Finmap.lookup_eq_none, not_not])
      · exact Set.notMem_empty y
    simp [dead, hy, h.absent hy, hne]
  | some d =>
    obtain ⟨d', hd', hw⟩ := h.present hy
    rw [mem_dead_iff hd', Set.mem_union, mem_dead_iff hy, hw.dead_iff]

theorem hasChild_of_changes {R : String → InstanceDescription → InstanceDescription → Prop}
    (hR : ∀ y d d', R y d d' → d'.childList = d.childList) (h : FiniteMap.Changes R s s') :
    HasChild s' = HasChild s := by
  funext p c
  refine propext ⟨?_, ?_⟩
  · intro hparent
    obtain ⟨d', hd', r, hr, ht⟩ := hparent
    obtain ⟨d, hd, he⟩ := h.back hd'
    exact ⟨d, hd, r, hR _ _ _ he ▸ hr, ht⟩
  · intro hparent
    obtain ⟨d, hd, r, hr, ht⟩ := hparent
    obtain ⟨d', hd', he⟩ := h.present hd
    exact ⟨d', hd', r, (hR _ _ _ he).symm ▸ hr, ht⟩

theorem Orphaned.childList {d d' : InstanceDescription} (h : Orphaned clock d d') :
    d'.childList = d.childList := by
  rcases h with rfl | ⟨_, t, _, rfl⟩ <;> rfl

/-- A cascade after the links only adds kills, and only where a kill was asked for. -/
theorem LinksWritten.orphaned {later : Clock} (hl : Later clock later) {y : String}
    {a b c : InstanceDescription} (hk : request.killInstanceRequest.isSome)
    (hab : LinksWritten clock x request y a b) (hbc : Orphaned later b c) :
    Effect clock x request y a c := by
  rcases hbc with rfl | ⟨hn, t, ht, rfl⟩
  · exact ⟨hab.1, Or.inl hab.2⟩
  · refine ⟨⟨hab.1.1, hab.1.2, hab.1.3, hab.1.4, hab.1.5, hab.1.6, hab.1.7, hab.1.8, hab.1.9,
      hab.1.10, hab.1.11⟩, Or.inr ⟨hk, ?_, t, hl.mem ht, rfl⟩⟩
    by_contra hne
    have := hab.dead_iff.mpr (Or.inl (Option.isSome_iff_ne_none.mpr hne))
    rw [hn] at this
    cases this

private theorem incoming_child_carried (hl : Linkable s x request) {y : String} {q : Relationship}
    (hq : q ∈ (incoming x request y).childList) : ∃ c, q.target = some c := by
  by_cases hy : y = x.instanceId
  · subst hy
    rw [incoming_self] at hq
    obtain ⟨c, hc, _⟩ := hl.child q hq
    exact ⟨c, hc⟩
  · rw [incoming_other hy] at hq
    by_cases hb : request.parent.bind Relationship.target = some y
    · simp only [InstanceDescription.childList, hb, if_true, List.mem_singleton] at hq
      exact ⟨x.instanceId, hq ▸ rfl⟩
    · simp only [InstanceDescription.childList, hb, if_false, List.not_mem_nil] at hq

private theorem incoming_parent_carried (hl : Linkable s x request) {y : String} {q : Relationship}
    (hq : q ∈ (incoming x request y).parent) : ∃ c, q.target = some c := by
  by_cases hy : y = x.instanceId
  · subst hy
    rw [incoming_self] at hq
    obtain ⟨c, hc, _⟩ := hl.parent q hq
    exact ⟨c, hc⟩
  · rw [incoming_other hy] at hq
    simp only [Option.mem_def, Option.ite_none_right_eq_some, Option.some.injEq] at hq
    exact ⟨x.instanceId, hq.2 ▸ rfl⟩

/-- Ids stay in place under everything a request with linkable ends writes. -/
theorem named_written (hs : Named s) (hl : Linkable s x request)
    (h : FiniteMap.Changes (fun y => Updated clock (incoming x request y)) s s') : Named s' where
  key hd := by
    obtain ⟨u, hu, hw⟩ := h.back hd
    rw [hw.instanceId, hs.key hu]
  parent {k d r} hd hr := by
    obtain ⟨u, hu, hw⟩ := h.back hd
    rcases hw.parent.mem hr with hr | ⟨q, hq, t, _, rfl⟩
    · exact hs.parent hu hr
    · obtain ⟨p, hp⟩ := incoming_parent_carried hl hq
      exact ⟨p, hp⟩
  child {k d r} hd hr := by
    obtain ⟨u, hu, hw⟩ := h.back hd
    rcases hw.childList_mem hr with hr | ⟨q, hq, t, _, rfl⟩
    · exact hs.child hu hr
    · obtain ⟨c, hc⟩ := incoming_child_carried hl hq
      exact ⟨c, hc⟩

/-- Once the links are validated, no phase fails, not even on a store with dangling links. -/
theorem commitUpdate_effect (hs : Named s) (ha : Accepts s x request) (clock : Clock) :
    ∃ s' later, (commitUpdate x request).exec s clock = (.ok (), s', later) ∧
      FiniteMap.Changes (Effect clock x request) s s' := by
  obtain ⟨d, hd, hkd⟩ := ha.alive
  obtain ⟨s3, later, hrun, hlater, h3⟩ := writeLinks_run hd ha.linkable clock
  obtain ⟨d3, hd3, hw3⟩ := h3.present hd
  have hnamed := named_written hs ha.linkable (h3.mono fun _ _ _ hw => hw.1)
  have hroot : d3.killInstanceRequest.isSome ↔ request.killInstanceRequest.isSome := by
    rw [hw3.dead_iff, hkd]
    simp [killed]
  rw [hrun, exec_killDescendants hd3]
  by_cases hk : request.killInstanceRequest.isSome
  · rw [if_pos (hroot.mpr hk)]
    have hok := killChildren_ok d3.childList.reverse s3 later (fun _ _ hu _ hr => hnamed.child hu hr)
      (fun r hr => hnamed.child hd3 (List.mem_reverse.mp hr))
    obtain ⟨_, hcascade⟩ := killChildren_changes d3.childList.reverse s3 later
    rcases hr : killChildren d3.childList.reverse s3 later with ⟨r, s', last⟩
    rw [hr] at hok hcascade
    obtain rfl : r = .ok () := hok
    exact ⟨s', last, rfl, h3.trans (fun _ _ _ _ hab hbc => hab.orphaned hlater hk hbc) hcascade⟩
  · rw [if_neg (fun h => hk (hroot.mp h))]
    exact ⟨s3, later, rfl, h3.mono fun _ _ _ hw => ⟨hw.1, Or.inl hw.2⟩⟩

/-- An update is refused without a trace or accepted with its whole effect. -/
theorem apply_effect (hs : Named s) {r : Except Status Bool} {later : Clock}
    (h : (applyToInstanceDescription request).exec s clock = (r, s', later)) :
    (r ≠ .ok true ∧ s' = s) ∨
      r = .ok true ∧ ∃ x, Accepted s x request ∧ FiniteMap.Changes (Effect clock x request) s s' := by
  by_cases hx : ∃ x, Accepted s x request
  · obtain ⟨x, hx⟩ := hx
    obtain ⟨u, last, hrun, he⟩ := commitUpdate_effect hs hx.toAccepts clock
    rw [apply_of_accepted hs hx, exec_bind_ok _ _ hrun] at h
    cases h
    exact Or.inr ⟨rfl, x, hx, he⟩
  · obtain ⟨r', hne, hrun⟩ := apply_refused hs (fun x hx' => hx ⟨x, hx'⟩) clock
    rw [h] at hrun
    cases hrun
    exact Or.inl ⟨hne, rfl⟩

/-- Links stay well formed under everything an accepted request writes. -/
theorem wellLinked_written (hs : WellLinked s) (ha : Accepts s x request)
    (h : FiniteMap.Changes (fun y => Updated clock (incoming x request y)) s s') : WellLinked s' where
  key hd := (named_written hs.named ha.linkable h).key hd
  parent {k d r} hd hr := by
    obtain ⟨p, hp⟩ := (named_written hs.named ha.linkable h).parent hd hr
    rcases (hasParent_written h ha k p).mp ⟨d, hd, r, hr, hp⟩ with ⟨u', hu', q, hq, hqt⟩ | hn
    · obtain ⟨p', hp', hps, hne⟩ := hs.parent hu' hq
      rw [hqt] at hp'
      cases hp'
      exact ⟨p, hp, (h.mem_iff p).mpr hps, hne⟩
    · obtain ⟨u', hu', _⟩ := hn.parent_alive ha
      exact ⟨p, hp, (h.mem_iff p).mpr (Finmap.mem_of_lookup_eq_some hu'), (hn.ne ha).symm⟩
  child {k d r} hd hr := by
    obtain ⟨c, hc⟩ := (named_written hs.named ha.linkable h).child hd hr
    rcases (hasChild_written h ha k c).mp ⟨d, hd, r, hr, hc⟩ with ⟨u', hu', q, hq, hqt⟩ | hn
    · obtain ⟨c', hc', hcs, hne⟩ := hs.child hu' hq
      rw [hqt] at hc'
      cases hc'
      exact ⟨c, hc, (h.mem_iff c).mpr hcs, hne⟩
    · exact ⟨c, hc, (h.mem_iff c).mpr (hn.child_mem ha), hn.ne ha⟩
  agree c p := by
    rw [hasParent_written h ha, hasChild_written h ha, hs.agree]

/-- On well linked stores the cascade ends, and reaches everything below a killed instance. -/
theorem killDescendants_run (hs : WellLinked s) {d : InstanceDescription}
    (hd : s.lookup x.instanceId = some d) (clock : Clock)
    (hp : x.instanceId ∈ dead s →
      Pending (HasChild s) (dead s) (d.childList.reverse.filterMap Relationship.target)) :
    ∃ s' later, (killDescendants x).exec s clock = (.ok (), s', later) ∧
      FiniteMap.Changes (fun _ => Orphaned clock) s s' ∧
      (x.instanceId ∈ dead s → dead s' = dead s ∪ reach (HasChild s) {x.instanceId}) ∧
      (x.instanceId ∉ dead s → s' = s) := by
  rw [exec_killDescendants hd]
  by_cases hx : x.instanceId ∈ dead s
  · rw [if_pos ((mem_dead_iff hd).mp hx)]
    have hreg : ∀ k u, s.lookup k = some u → Registered s u.childList := fun k u hu r hr => by
      obtain ⟨c, hc, hcs, _⟩ := hs.child hu hr
      exact ⟨c, hc, hcs⟩
    obtain ⟨hok, hmarks⟩ := killChildren_marks d.childList.reverse s clock hreg
      (fun r hr => hreg _ _ hd r (List.mem_reverse.mp hr))
    obtain ⟨_, hcascade⟩ := killChildren_changes d.childList.reverse s clock
    have hchildren : {y | y ∈ d.childList.reverse.filterMap Relationship.target} =
        {y | HasChild s x.instanceId y} := by
      ext y
      simp only [Set.mem_ofPred_eq, hasChild_iff hd, List.mem_filterMap, List.mem_reverse]
    rcases hr : killChildren d.childList.reverse s clock with ⟨r, s', later⟩
    rw [hr] at hok hmarks hcascade
    obtain rfl : r = .ok () := hok
    refine ⟨s', later, rfl, hcascade, fun _ => ?_, fun h => absurd hx h⟩
    rw [hmarks.eq_reach (hp hx), hchildren, reach_singleton, Set.union_insert,
      Set.insert_eq_of_mem (Set.mem_union_left _ hx)]
  · rw [if_neg (fun h => hx ((mem_dead_iff hd).mpr h))]
    exact ⟨s, clock, rfl, .refl (fun _ _ => (Or.inl rfl : Orphaned clock _ _)) s,
      fun h => absurd h hx, fun _ => rfl⟩

theorem pending_killed (hs : Consistent s) (ha : Accepts s x request)
    (h : FiniteMap.Changes (LinksWritten clock x request) s s') {d : InstanceDescription}
    (hd : s'.lookup x.instanceId = some d) :
    Pending (HasChild s') (dead s') (d.childList.reverse.filterMap Relationship.target) := by
  have hupd : FiniteMap.Changes (fun y => Updated clock (incoming x request y)) s s' :=
    h.mono fun _ _ _ hw => hw.1
  obtain ⟨u, hu, _⟩ := ha.alive
  rw [dead_linksWritten (Finmap.mem_of_lookup_eq_some hu) h]
  intro a b hcase hab
  rcases hcase with hadead | hroot
  · -- the parents a request links to are alive, so a dead one has its old children only
    rcases (hasChild_written hupd ha a b).mp hab with hold | hnew
    · exact Or.inl (Or.inl (hs.deathClosed hadead hold))
    · exact absurd hadead (hnew.parent_alive ha).notMem_dead
  · obtain rfl : a = x.instanceId := by
      unfold killed at hroot
      split at hroot
      · exact hroot
      · cases hroot
    rw [hasChild_iff hd] at hab
    exact Or.inr (by simpa [List.mem_filterMap] using hab)

/-- Once the links are validated, no phase fails. -/
theorem commitUpdate_run (hs : Consistent s) (ha : Accepts s x request) (clock : Clock) :
    ∃ s' later, (commitUpdate x request).exec s clock = (.ok (), s', later) ∧
      Applied clock x request s s' := by
  obtain ⟨d, hd, hkd⟩ := ha.alive
  obtain ⟨s3, later, hrun, hlater, h3⟩ := writeLinks_run hd ha.linkable clock
  have hupd : FiniteMap.Changes (fun y => Updated clock (incoming x request y)) s s3 :=
    h3.mono fun _ _ _ hw => hw.1
  have hlinked := wellLinked_written hs.toWellLinked ha hupd
  obtain ⟨d3, hd3, hw3⟩ := h3.present hd
  have hdead3 := dead_linksWritten (Finmap.mem_of_lookup_eq_some hd) h3
  have hroot : x.instanceId ∈ dead s3 ↔ request.killInstanceRequest.isSome := by
    rw [mem_dead_iff hd3, hw3.dead_iff, hkd]
    simp [killed]
  obtain ⟨s', last, hkill, hcascade, hdead, hsame⟩ :=
    killDescendants_run hlinked hd3 later (fun _ => pending_killed hs ha h3 hd3)
  have hchild : HasChild s' = HasChild s3 :=
    hasChild_of_changes (fun _ _ _ => Orphaned.childList) hcascade
  obtain ⟨u, end_, hrun', heffect⟩ := commitUpdate_effect hs.named ha clock
  rw [hrun.trans hkill] at hrun'
  cases hrun'
  have hupd' : FiniteMap.Changes (fun y => Updated clock (incoming x request y)) s s' :=
    heffect.mono fun _ _ _ he => he.toUpdated
  refine ⟨s', last, hrun.trans hkill, heffect, hasParent_written hupd' ha,
    hasChild_written hupd' ha, ?_⟩
  rw [hchild, killed]
  by_cases hk : request.killInstanceRequest.isSome
  · rw [hdead (hroot.mpr hk), hdead3, killed, if_pos hk, reach_singleton, Set.union_insert,
      Set.union_insert, Set.union_singleton, Set.insert_union, Set.insert_idem]
  · rw [hsame (fun hx => hk (hroot.mp hx)), hdead3, killed, if_neg hk]
    simp [reach]

/-- An accepted request answers `true` and does all it asks for. -/
theorem apply_accepted (hs : Consistent s) (h : Accepted s x request) (clock : Clock) :
    ∃ s' later, (applyToInstanceDescription request).exec s clock = (.ok true, s', later) ∧
      Applied clock x request s s' := by
  obtain ⟨s', later, hrun, ha⟩ := commitUpdate_run hs h.toAccepts clock
  refine ⟨s', later, ?_, ha⟩
  rw [apply_of_accepted hs.named h, exec_bind_ok _ _ hrun]
  rfl

end WayPoint.Manager
