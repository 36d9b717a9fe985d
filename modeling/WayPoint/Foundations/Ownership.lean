import Mathlib.Data.Set.Insert
import Mathlib.Order.Defs.PartialOrder
import WayPoint.Foundations.Worklist

/-! Registered things with at most one owner each, where whatever a dead thing owns is dead.
Ownership and death are for ever, and killing is a closure. -/
namespace WayPoint.Foundations
variable {α : Type}

@[ext] structure Ownership (α : Type) where
  registered : Set α
  owner : α → α → Prop
  dead : Set α
  registered_of_owner : ∀ {c p}, owner c p → c ∈ registered ∧ p ∈ registered
  owner_unique : ∀ {c p q}, owner c p → owner c q → p = q
  owner_ne : ∀ {c p}, owner c p → c ≠ p
  registered_of_dead : dead ⊆ registered
  dead_of_owner : ∀ {c p}, owner c p → p ∈ dead → c ∈ dead

namespace Ownership

/-- `p` owns `c`. -/
def owns (o : Ownership α) (p c : α) : Prop := o.owner c p

theorem closed_dead (o : Ownership α) : Closed o.owns o.dead := fun _ _ hp hpc =>
  o.dead_of_owner hpc hp

/-- Later states know more things, more owners and more deaths. -/
instance : PartialOrder (Ownership α) where
  le o o' := o.registered ⊆ o'.registered ∧ (∀ c p, o.owner c p → o'.owner c p) ∧ o.dead ⊆ o'.dead
  le_refl o := ⟨subset_rfl, fun _ _ h => h, subset_rfl⟩
  le_trans a b c hab hbc := ⟨hab.1.trans hbc.1, fun x p h => hbc.2.1 x p (hab.2.1 x p h),
    hab.2.2.trans hbc.2.2⟩
  le_antisymm a b hab hba := Ownership.ext (hab.1.antisymm hba.1)
    (funext fun c => funext fun p => propext ⟨hab.2.1 c p, hba.2.1 c p⟩) (hab.2.2.antisymm hba.2.2)

theorem owner_of_le {o o' : Ownership α} (h : o ≤ o') {c p : α} (ho : o.owner c p) :
    o'.owner c p := h.2.1 c p ho

/-- A new thing, unowned and alive. -/
def register (o : Ownership α) (x : α) : Ownership α where
  registered := insert x o.registered
  owner := o.owner
  dead := o.dead
  registered_of_owner h := ⟨Or.inr (o.registered_of_owner h).1, Or.inr (o.registered_of_owner h).2⟩
  owner_unique := o.owner_unique
  owner_ne := o.owner_ne
  registered_of_dead := o.registered_of_dead.trans (Set.subset_insert x _)
  dead_of_owner := o.dead_of_owner

theorem le_register (o : Ownership α) (x : α) : o ≤ o.register x :=
  ⟨Set.subset_insert x _, fun _ _ h => h, subset_rfl⟩

/-- New links that may be added at once: from children without an owner to living owners. -/
structure Adoptable (o : Ownership α) (L : α → α → Prop) : Prop where
  registered : ∀ {c p}, L c p → c ∈ o.registered ∧ p ∈ o.registered
  unique : ∀ {c p q}, L c p → L c q → p = q
  ne : ∀ {c p}, L c p → c ≠ p
  orphan : ∀ {c p}, L c p → ∀ q, ¬ o.owner c q
  alive : ∀ {c p}, L c p → p ∉ o.dead

def adopt (o : Ownership α) (L : α → α → Prop) (h : o.Adoptable L) : Ownership α where
  registered := o.registered
  owner c p := o.owner c p ∨ L c p
  dead := o.dead
  registered_of_owner hp := hp.elim o.registered_of_owner h.registered
  owner_unique {c p q} hp hq := by
    rcases hp with hp | hp <;> rcases hq with hq | hq
    · exact o.owner_unique hp hq
    · exact absurd hp (h.orphan hq p)
    · exact absurd hq (h.orphan hp q)
    · exact h.unique hp hq
  owner_ne hp := hp.elim o.owner_ne h.ne
  registered_of_dead := o.registered_of_dead
  dead_of_owner {c p} hp hd := hp.elim (o.dead_of_owner · hd) (fun hl => absurd hd (h.alive hl))

theorem le_adopt (o : Ownership α) {L : α → α → Prop} (h : o.Adoptable L) : o ≤ o.adopt L h :=
  ⟨subset_rfl, fun _ _ hp => Or.inl hp, subset_rfl⟩

theorem adopt_empty (o : Ownership α) {L : α → α → Prop} (h : o.Adoptable L)
    (hL : ∀ c p, ¬ L c p) : o.adopt L h = o :=
  Ownership.ext rfl (funext fun c => funext fun p => propext (or_iff_left (hL c p))) rfl

theorem reach_registered (o : Ownership α) (S : Set α) :
    reach o.owns (S ∩ o.registered) ⊆ o.registered :=
  reach_subset (fun _ _ _ hxy => (o.registered_of_owner hxy).1) Set.inter_subset_right

/-- Kills the registered things of `S` and everything they own, directly or not. -/
def kill (o : Ownership α) (S : Set α) : Ownership α where
  registered := o.registered
  owner := o.owner
  dead := o.dead ∪ reach o.owns (S ∩ o.registered)
  registered_of_owner := o.registered_of_owner
  owner_unique := o.owner_unique
  owner_ne := o.owner_ne
  registered_of_dead := Set.union_subset o.registered_of_dead (o.reach_registered S)
  dead_of_owner hp hd := (o.closed_dead.union (reach_closed o.owns _)) hd hp

theorem le_kill (o : Ownership α) (S : Set α) : o ≤ o.kill S :=
  ⟨subset_rfl, fun _ _ h => h, Set.subset_union_left⟩

/-- Killing in two rounds is killing once. -/
theorem kill_kill (o : Ownership α) (S T : Set α) : (o.kill S).kill T = o.kill (S ∪ T) := by
  refine Ownership.ext rfl rfl ?_
  change (o.dead ∪ reach o.owns (S ∩ o.registered)) ∪ reach o.owns (T ∩ o.registered) =
    o.dead ∪ reach o.owns ((S ∪ T) ∩ o.registered)
  rw [Set.union_inter_distrib_right, reach_union, Set.union_assoc]

/-- What is dead already need not be killed again. -/
theorem kill_dead (o : Ownership α) {S : Set α} (h : S ∩ o.registered ⊆ o.dead) : o.kill S = o :=
  Ownership.ext rfl rfl (Set.union_eq_self_of_subset_right (reach_subset o.closed_dead h))

/-- The steps of an ownership over time. -/
inductive Step : Ownership α → Ownership α → Prop where
  | register (o : Ownership α) {x : α} (fresh : x ∉ o.registered) : Step o (o.register x)
  | adopt (o : Ownership α) {L : α → α → Prop} (h : o.Adoptable L) : Step o (o.adopt L h)
  | kill (o : Ownership α) (S : Set α) : Step o (o.kill S)

theorem Step.le {o o' : Ownership α} (h : Step o o') : o ≤ o' := by
  cases h with
  | register _ => exact o.le_register _
  | adopt h => exact o.le_adopt h
  | kill S => exact o.le_kill S

/-- Over any number of steps nothing registered, owned or dead is ever taken back. -/
theorem le_of_steps {o o' : Ownership α} (h : Relation.ReflTransGen Step o o') : o ≤ o' := by
  induction h with
  | refl => exact le_rfl
  | tail _ hs ih => exact ih.trans hs.le

end Ownership
end WayPoint.Foundations
