import WayPoint.Manager.Links

/-! The kill cascade: whom it may touch on any store, and that it marks exactly what the killed
instance's children list reaches when every child is registered. -/
namespace WayPoint.Manager
open Foundations

/-- The cascade leaves a description alone, or kills one that was alive. -/
def Orphaned (clock : Clock) (d d' : InstanceDescription) : Prop :=
  d' = d ∨ d.killInstanceRequest = none ∧ ∃ t ∈ clock,
    d' = { d with killInstanceRequest := some ⟨some t, KillReason.parentDead.toI32⟩ }

theorem killChildren_changes (children : List Relationship) (s : InnerService) (clock : Clock) :
    Later clock (killChildren children s clock).2.2 ∧
      FiniteMap.Changes (fun _ => Orphaned clock) s (killChildren children s clock).2.1 := by
  have hsame (s : InnerService) (clock : Clock) :
      FiniteMap.Changes (fun _ => Orphaned clock) s s :=
    .refl (fun _ _ => (Or.inl rfl : Orphaned clock _ _)) s
  fun_induction killChildren children s clock with
  | case1 s clock => exact ⟨.refl clock, hsame s clock⟩
  | case2 s clock child rest e h => exact ⟨.refl clock, hsame s clock⟩
  | case3 s clock child rest id h hd ih => exact ih
  | case4 s clock child rest id h d hd hk ih => exact ih
  | case5 s clock child rest id h d hd hk ih =>
    have hhead : FiniteMap.Changes (fun _ => Orphaned clock) s
        (s.insert id.instanceId (killOrphan d clock).1) :=
      .insert hd (Or.inr ⟨by simpa using hk, clock.head, (Later.refl clock).head_mem, rfl⟩)
        (fun _ _ _ => Or.inl rfl)
    refine ⟨(Later.tail clock).trans ih.1, hhead.trans ?_ ih.2⟩
    intro y a b c hab hbc
    rcases hab with rfl | ⟨hn, t, ht, rfl⟩ <;> rcases hbc with rfl | ⟨hn', t', ht', rfl⟩
    · exact Or.inl rfl
    · exact Or.inr ⟨hn', t', (Later.tail clock).mem ht', rfl⟩
    · exact Or.inr ⟨hn, t, ht, rfl⟩
    · cases hn'

/-- The cascade only fails at a child entry without an id. -/
theorem killChildren_ok (children : List Relationship) (s : InnerService) (clock : Clock)
    (hs : ∀ k d, s.lookup k = some d → ∀ r ∈ d.childList, ∃ c, r.target = some c)
    (hc : ∀ r ∈ children, ∃ c, r.target = some c) : (killChildren children s clock).1 = .ok () := by
  fun_induction killChildren children s clock with
  | case1 s clock => rfl
  | case2 s clock child rest e h =>
    obtain ⟨k, hk⟩ := hc child List.mem_cons_self
    rw [getInstanceId_of_target hk] at h
    cases h
  | case3 s clock child rest id h hd ih => exact ih hs fun r hr => hc r (List.mem_cons_of_mem child hr)
  | case4 s clock child rest id h d hd hk ih =>
    exact ih hs fun r hr => hc r (List.mem_cons_of_mem child hr)
  | case5 s clock child rest id h d hd hk ih =>
    apply ih
    · intro k u hu
      rw [FiniteMap.lookup_insert_eq] at hu
      split at hu
      · cases hu
        exact hs id.instanceId d hd
      · exact hs k u hu
    · intro r hr
      rcases List.mem_append.mp hr with hr | hr
      · exact hs id.instanceId d hd r (List.mem_reverse.mp hr)
      · exact hc r (List.mem_cons_of_mem child hr)

private theorem hasChild_insert_killOrphan {s : InnerService} {key : String} {d : InstanceDescription}
    (hd : s.lookup key = some d) (clock : Clock) :
    HasChild (s.insert key (killOrphan d clock).1) = HasChild s := by
  funext p c
  unfold HasChild
  by_cases hp : p = key
  · subst hp
    simp only [Finmap.lookup_insert, hd, Option.some.injEq, exists_eq_left']
    rfl
  · rw [Finmap.lookup_insert_of_ne _ hp]

private theorem dead_insert_killOrphan (s : InnerService) (key : String) (d : InstanceDescription)
    (clock : Clock) : dead (s.insert key (killOrphan d clock).1) = insert key (dead s) := by
  ext x
  simp only [dead, Set.mem_ofPred_eq, Set.mem_insert_iff, FiniteMap.lookup_insert_eq]
  by_cases hx : x = key
  · simp [hx, killOrphan_run]
  · simp [hx]

/-- On registered children the cascade ends without an error and marks like the worklist. -/
theorem killChildren_marks (children : List Relationship) (s : InnerService) (clock : Clock)
    (hs : ∀ k d, s.lookup k = some d → Registered s d.childList) (hc : Registered s children) :
    (killChildren children s clock).1 = .ok () ∧
      Marks (HasChild s) (dead s) (children.filterMap Relationship.target)
        (dead (killChildren children s clock).2.1) := by
  fun_induction killChildren children s clock with
  | case1 s clock => exact ⟨rfl, .done _⟩
  | case2 s clock child rest e h =>
    obtain ⟨k, hk, _⟩ := hc child List.mem_cons_self
    rw [getInstanceId_of_target hk] at h
    cases h
  | case3 s clock child rest id h hd ih =>
    obtain ⟨k, hk, hks⟩ := hc child List.mem_cons_self
    rw [getInstanceId_of_target hk] at h
    cases h
    obtain ⟨d, hd'⟩ := Finmap.mem_iff.mp hks
    rw [hd] at hd'
    cases hd'
  | case4 s clock child rest id h d hd hk ih =>
    obtain ⟨k, ht, _⟩ := hc child List.mem_cons_self
    rw [getInstanceId_of_target ht] at h
    cases h
    obtain ⟨hok, hm⟩ := ih hs fun r hr => hc r (List.mem_cons_of_mem child hr)
    refine ⟨hok, ?_⟩
    rw [List.filterMap_cons_some ht]
    exact .skip ((mem_dead_iff hd).mpr hk) hm
  | case5 s clock child rest id h d hd hk ih =>
    obtain ⟨k, ht, _⟩ := hc child List.mem_cons_self
    rw [getInstanceId_of_target ht] at h
    cases h
    have hmem (y : String) : y ∈ s.insert k (killOrphan d clock).1 ↔ y ∈ s := by
      rw [Finmap.mem_insert]
      exact or_iff_right_of_imp (fun hy => hy ▸ Finmap.mem_of_lookup_eq_some hd)
    have hregistered {rs : List Relationship} (hr : Registered s rs) :
        Registered (s.insert k (killOrphan d clock).1) rs := fun r hm => by
      obtain ⟨c, hc, hcs⟩ := hr r hm
      exact ⟨c, hc, (hmem c).mpr hcs⟩
    obtain ⟨hok, hm⟩ := ih
      (fun j u hu => by
        rw [FiniteMap.lookup_insert_eq] at hu
        split at hu
        · cases hu
          exact hregistered (hs k d hd)
        · exact hregistered (hs j u hu))
      (hregistered fun r hr => by
        rcases List.mem_append.mp hr with hr | hr
        · exact hs k d hd r (List.mem_reverse.mp hr)
        · exact hc r (List.mem_cons_of_mem child hr))
    refine ⟨hok, ?_⟩
    rw [hasChild_insert_killOrphan hd, dead_insert_killOrphan] at hm
    rw [List.filterMap_cons_some ht]
    refine .mark (by rw [mem_dead_iff hd]; simpa using hk) (fun y => ?_) hm
    simp only [List.filterMap_append, List.mem_append, List.mem_filterMap, List.mem_reverse,
      HasChild, hd, Option.some.injEq, exists_eq_left']

end WayPoint.Manager
