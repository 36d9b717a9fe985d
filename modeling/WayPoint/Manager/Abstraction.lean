import WayPoint.Foundations.Ownership
import WayPoint.Manager.Carried

/-! A consistent store is an ownership of instances, and everything the manager does to it is a
sequence of ownership steps. -/
namespace WayPoint.Manager
open Foundations Program

variable {s s' : InnerService} {clock : Clock} {x : InstanceId} {request : InstanceDescription}

/-- What a store means: the ids it holds, their parents, and which of them are dead. -/
def ownership (s : InnerService) (hs : Consistent s) : Ownership String where
  registered := {x | x ∈ s}
  owner := HasParent s
  dead := dead s
  registered_of_owner {c p} := by
    intro h
    obtain ⟨d, hd, r, hr, ht⟩ := h
    obtain ⟨q, hq, hqs, _⟩ := hs.parent hd hr
    rw [ht] at hq
    cases hq
    exact ⟨Finmap.mem_of_lookup_eq_some hd, hqs⟩
  owner_unique hp hq := hp.unique hq
  owner_ne {c p} := by
    intro h
    obtain ⟨d, hd, r, hr, ht⟩ := h
    obtain ⟨q, hq, _, hne⟩ := hs.parent hd hr
    rw [ht] at hq
    cases hq
    exact hne.symm
  registered_of_dead := by
    intro y h
    obtain ⟨d, hd, _⟩ := h
    exact Finmap.mem_of_lookup_eq_some hd
  dead_of_owner hp hd := hs.deathClosed hd ((hs.agree _ _).mp hp)

theorem owns_ownership (hs : Consistent s) : (ownership s hs).owns = HasChild s :=
  funext fun p => funext fun c => propext (hs.agree c p)

theorem adoptable_newLink (hs : Consistent s) (ha : Accepts s x request) :
    (ownership s hs).Adoptable (NewLink x request) where
  registered h := by
    obtain ⟨d, hd, _⟩ := h.parent_alive ha
    exact ⟨h.child_mem ha, Finmap.mem_of_lookup_eq_some hd⟩
  unique {c p q} hp hq := by
    rcases hp with ⟨rfl, hp⟩ | ⟨rfl, hm⟩ <;> rcases hq with ⟨hc, hq⟩ | ⟨rfl, hm'⟩
    · rw [hp] at hq
      exact Option.some.inj hq
    · exact absurd rfl (NewLink.ne ha (Or.inr ⟨rfl, hm'⟩))
    · subst hc
      exact absurd rfl (NewLink.ne ha (Or.inr ⟨rfl, hm⟩))
    · rfl
  ne h := h.ne ha
  orphan h := h.orphan ha
  alive h := (h.parent_alive ha).notMem_dead

/-- An accepted request adopts the children it links and kills what it asks to kill. -/
theorem Applied.ownership_eq (h : Applied clock x request s s') (hs : Consistent s)
    (ha : Accepts s x request) (hs' : Consistent s') : ownership s' hs' =
      ((ownership s hs).adopt _ (adoptable_newLink hs ha)).kill (killed x request) := by
  refine Ownership.ext ?_ ?_ ?_
  · exact Set.ext fun y => h.effect.mem_iff y
  · exact funext fun c => funext fun p => propext (h.hasParent c p)
  · have howns : ((ownership s hs).adopt _ (adoptable_newLink hs ha)).owns = HasChild s' :=
      funext fun p => funext fun c => propext ((h.hasParent c p).symm.trans (hs'.agree c p))
    have hkilled : killed x request ∩ {y | y ∈ s} = killed x request := by
      refine Set.inter_eq_left.mpr fun y hy => ?_
      obtain ⟨d, hd, _⟩ := ha.alive
      unfold killed at hy
      split at hy
      · exact hy ▸ Finmap.mem_of_lookup_eq_some hd
      · cases hy
    change Manager.dead s' = Manager.dead s ∪ reach _ (killed x request ∩ {y | y ∈ s})
    rw [h.dead, howns, hkilled]

/-- Nothing the manager does goes outside the ownership's steps. -/
theorem Applied.refines (h : Applied clock x request s s') (hs : Consistent s)
    (ha : Accepts s x request) (hs' : Consistent s') :
    Relation.ReflTransGen Ownership.Step (ownership s hs) (ownership s' hs') := by
  rw [h.ownership_eq hs ha hs']
  exact .tail (.single (.adopt _ (adoptable_newLink hs ha))) (.kill _ _)

theorem ownership_blank (hs : Consistent s) (hx : s.lookup x.instanceId = none) (t : InstanceType)
    (now : TimestampMs) (hs' : Consistent (s.insert x.instanceId (blankDescription x (some t.toI32) now))) :
    ownership _ hs' = (ownership s hs).register x.instanceId := by
  refine Ownership.ext ?_ ?_ (dead_blank _ _ hx)
  · exact Set.ext fun y => Finmap.mem_insert
  · exact funext fun c => funext fun p => propext (hasParent_blank _ _ hx c p)

theorem Mutates.refines (hs : Consistent s) (h : Mutates s s') (hs' : Consistent s') :
    Relation.ReflTransGen Ownership.Step (ownership s hs) (ownership s' hs') := by
  rcases h with ⟨hx, ha⟩ | ⟨t, now, fresh, hx, ha⟩
  · exact ha.refines hs hx.toAccepts hs'
  · have hb := blank_consistent hs fresh t now
    refine .head ?_ (ha.refines hb hx.toAccepts hs')
    rw [ownership_blank hs fresh]
    exact .register _ (Finmap.lookup_eq_none.mp fresh)

/-- A whole request takes the ownership some steps further. -/
theorem rpc_refines (hs : Consistent s) {rpc : Rpc} {answer : Answer}
    (h : Runs serves s rpc.handler answer s') (hs' : Consistent s') :
    Relation.ReflTransGen Ownership.Step (ownership s hs) (ownership s' hs') := by
  rcases rpc_cases hs h with ⟨_, rfl⟩ | ⟨_, hm⟩
  · exact .refl
  · exact hm.refines hs hs'

end WayPoint.Manager
