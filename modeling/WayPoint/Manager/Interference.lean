import WayPoint.Manager.Abstraction

/-! What other clients may do to the store between two steps of a program: any section that takes
no entry back, which only ever moves the ownership forward. -/
namespace WayPoint.Manager
open Foundations Program

variable {s s' : InnerService}

/-- The sections of all handlers but the removal that rolls a registration back. -/
def Section.Keeps : Section → Prop
  | .remove _ => False
  | .insertBlank _ instanceType => ∃ t : InstanceType, instanceType = some t.toI32
  | _ => True

/-- One section of another client, or of the kill loop. -/
def Interference (s s' : InnerService) : Prop :=
  ∃ (c : Section) (r : c.Reply), c.Keeps ∧ serves c s r s'

/-- The store stays consistent and its ownership takes some steps. -/
def Advances (s s' : InnerService) (hs : Consistent s) : Prop :=
  ∃ hs' : Consistent s', Relation.ReflTransGen Ownership.Step (ownership s hs) (ownership s' hs')

theorem Advances.refl (hs : Consistent s) : Advances s s hs := ⟨hs, .refl⟩

theorem Mutates.advances (hs : Consistent s) (h : Mutates s s') : Advances s s' hs :=
  ⟨h.consistent hs, h.refines hs _⟩

private theorem apply_advances (hs : Consistent s) {request : InstanceDescription}
    {r : Except Status Bool} (h : serves (.apply request) s r s') : Advances s s' hs := by
  obtain ⟨clock, later, hrun⟩ := serves_apply_iff.mp h
  rcases apply_cases hs request clock hrun with ⟨_, rfl⟩ | ⟨_, x, hx, ha⟩
  · exact .refl hs
  · exact (Mutates.updated hx ha).advances hs

theorem Interference.advances (hs : Consistent s) (h : Interference s s') : Advances s s' hs := by
  obtain ⟨c, r, hc, hserve⟩ := h
  cases c with
  | remove key => exact absurd hc id
  | apply request => exact apply_advances hs hserve
  | insertBlank id instanceType =>
    obtain ⟨t, rfl⟩ := hc
    rcases serves_insertBlank_iff.mp hserve with ⟨_, _, rfl⟩ | ⟨_, hx, now, rfl⟩
    · exact .refl hs
    · refine ⟨blank_consistent hs hx t _, ?_⟩
      rw [ownership_blank hs hx]
      exact .single (.register _ (Finmap.lookup_eq_none.mp hx))
  | now | get | getAll | getUnhealth =>
    obtain ⟨_, _, _, hrun⟩ := hserve
    cases hrun
    exact .refl hs

/-- Parents are for ever: neither cleared nor replaced. -/
theorem Advances.hasParent {hs : Consistent s} (h : Advances s s' hs) {c p : String}
    (hp : HasParent s c p) : HasParent s' c p := by
  obtain ⟨hs', hsteps⟩ := h
  exact Ownership.owner_of_le (Ownership.le_of_steps hsteps) (show (ownership s hs).owner c p from hp)

/-- An update that answers `true` was accepted and applied. -/
theorem tryUpdate_true (hs : Consistent s) {request : InstanceDescription}
    (h : Runs serves s (tryUpdateInstanceDescription request) (.ok true) s') :
    ∃ x clock, Accepted s x request ∧ Applied clock x request s s' := by
  unfold tryUpdateInstanceDescription at h
  split at h
  · obtain ⟨clock, later, hrun⟩ := serves_apply_iff.mp (runs_perform_iff.mp h)
    rcases apply_cases hs request clock hrun with ⟨hne, _⟩ | ⟨_, x, hx, ha⟩
    · exact absurd rfl hne
    · exact ⟨x, clock, hx, ha⟩
  · rw [pure_eq, runs_done_iff] at h
    cases h.1

theorem tryUpdate_advances (hs : Consistent s) {request : InstanceDescription}
    {r : Except Status Bool} (h : Runs serves s (tryUpdateInstanceDescription request) r s') :
    Advances s s' hs := by
  rcases writing_cases hs (Or.inr (Or.inl h)) with ⟨_, rfl⟩ | ⟨_, hm⟩
  · exact .refl hs
  · exact hm.advances hs

end WayPoint.Manager
