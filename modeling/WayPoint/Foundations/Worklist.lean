import Mathlib.Logic.Relation
import Mathlib.Data.Set.Basic

/-! What a relation reaches from a set of points, and the marking loop that computes it while
skipping points that are already marked. -/
namespace WayPoint.Foundations
variable {α : Type}

/-- The points of `S` and everything a path of `R` leads to from them. -/
def reach (R : α → α → Prop) (S : Set α) : Set α :=
  {y | ∃ x ∈ S, Relation.ReflTransGen R x y}

def Closed (R : α → α → Prop) (S : Set α) : Prop :=
  ∀ ⦃x y⦄, x ∈ S → R x y → y ∈ S

variable {R : α → α → Prop}

theorem subset_reach (R : α → α → Prop) (S : Set α) : S ⊆ reach R S :=
  fun x hx => ⟨x, hx, .refl⟩

theorem reach_closed (R : α → α → Prop) (S : Set α) : Closed R (reach R S) := by
  intro x y h hxy
  obtain ⟨z, hz, hzx⟩ := h
  exact ⟨z, hz, hzx.tail hxy⟩

theorem Closed.path {S : Set α} (h : Closed R S) {x y : α} (hx : x ∈ S)
    (hxy : Relation.ReflTransGen R x y) : y ∈ S := by
  induction hxy with
  | refl => exact hx
  | tail _ hbc ih => exact h ih hbc

theorem reach_subset {S T : Set α} (hT : Closed R T) (h : S ⊆ T) : reach R S ⊆ T := by
  intro y hreach
  obtain ⟨x, hx, hxy⟩ := hreach
  exact hT.path (h hx) hxy

theorem reach_mono {S T : Set α} (h : S ⊆ T) : reach R S ⊆ reach R T :=
  reach_subset (reach_closed R T) (h.trans (subset_reach R T))

theorem reach_union (S T : Set α) : reach R (S ∪ T) = reach R S ∪ reach R T := by
  apply Set.Subset.antisymm
  · intro y h
    obtain ⟨x, hx | hx, hxy⟩ := h
    · exact Or.inl ⟨x, hx, hxy⟩
    · exact Or.inr ⟨x, hx, hxy⟩
  · exact Set.union_subset (reach_mono Set.subset_union_left) (reach_mono Set.subset_union_right)

theorem reach_singleton (R : α → α → Prop) (x : α) :
    reach R {x} = insert x (reach R {y | R x y}) := by
  ext z
  constructor
  · rintro ⟨_, rfl, hz⟩
    rcases Relation.ReflTransGen.cases_head hz with rfl | ⟨y, hxy, hyz⟩
    · exact Or.inl rfl
    · exact Or.inr ⟨y, hxy, hyz⟩
  · intro hcase
    rcases hcase with rfl | ⟨y, hxy, hyz⟩
    · exact ⟨z, rfl, .refl⟩
    · exact ⟨x, rfl, .head hxy hyz⟩

theorem Closed.union {S T : Set α} (hS : Closed R S) (hT : Closed R T) : Closed R (S ∪ T) := by
  intro x y hcase hxy
  rcases hcase with hx | hx
  · exact Or.inl (hS hx hxy)
  · exact Or.inr (hT hx hxy)

/-- Runs of a marking loop over a stack. Popping a marked point drops it; popping an unmarked
one marks it and leaves its successors on the stack with the rest. -/
inductive Marks (R : α → α → Prop) : Set α → List α → Set α → Prop where
  | done (D : Set α) : Marks R D [] D
  | skip {D D' : Set α} {x : α} {stack : List α} (hx : x ∈ D) (rest : Marks R D stack D') :
      Marks R D (x :: stack) D'
  | mark {D D' : Set α} {x : α} {stack next : List α} (hx : x ∉ D)
      (hnext : ∀ y, y ∈ next ↔ R x y ∨ y ∈ stack) (rest : Marks R (insert x D) next D') :
      Marks R D (x :: stack) D'

/-- Every successor of a marked point is marked or still waits on the stack. -/
def Pending (R : α → α → Prop) (D : Set α) (stack : List α) : Prop :=
  ∀ ⦃x y⦄, x ∈ D → R x y → y ∈ D ∨ y ∈ stack

theorem Pending.closed {D : Set α} {stack : List α} (h : Pending R D stack) :
    Closed R (D ∪ reach R {x | x ∈ stack}) := by
  intro x y hcase hxy
  rcases hcase with hx | hx
  · exact (h hx hxy).imp id (fun hy => subset_reach R _ hy)
  · exact Or.inr (reach_closed R _ hx hxy)

theorem Pending.skip {D : Set α} {x : α} {stack : List α} (hx : x ∈ D)
    (h : Pending R D (x :: stack)) : Pending R D stack := by
  intro a b ha hab
  rcases h ha hab with hb | hb
  · exact Or.inl hb
  · rcases List.mem_cons.mp hb with rfl | hb
    · exact Or.inl hx
    · exact Or.inr hb

theorem Pending.mark {D : Set α} {x : α} {stack next : List α}
    (hnext : ∀ y, y ∈ next ↔ R x y ∨ y ∈ stack) (h : Pending R D (x :: stack)) :
    Pending R (insert x D) next := by
  intro a b hcase hab
  rcases hcase with rfl | ha
  · exact Or.inr ((hnext b).mpr (Or.inl hab))
  · rcases h ha hab with hb | hb
    · exact Or.inl (Or.inr hb)
    · rcases List.mem_cons.mp hb with rfl | hb
      · exact Or.inl (Or.inl rfl)
      · exact Or.inr ((hnext b).mpr (Or.inr hb))

/-- Pruning at marked points loses nothing: the loop marks exactly what the stack reaches. -/
theorem Marks.eq_reach {D D' : Set α} {stack : List α} (h : Marks R D stack D')
    (hp : Pending R D stack) : D' = D ∪ reach R {x | x ∈ stack} := by
  induction h with
  | done D =>
    apply Set.Subset.antisymm Set.subset_union_left
    refine Set.union_subset subset_rfl (reach_subset (fun x y hx hxy => ?_) (by simp))
    simpa using hp hx hxy
  | @skip D D' x stack hx rest ih =>
    rw [ih (hp.skip hx)]
    apply Set.Subset.antisymm
    · exact Set.union_subset_union_right D (reach_mono fun y hy => List.mem_cons_of_mem x hy)
    · refine Set.union_subset Set.subset_union_left (reach_subset (hp.skip hx).closed ?_)
      intro y hy
      rcases List.mem_cons.mp hy with rfl | hy
      · exact Or.inl hx
      · exact Or.inr (subset_reach R _ hy)
  | @mark D D' x stack next hx hnext rest ih =>
    rw [ih (hp.mark hnext)]
    apply Set.Subset.antisymm
    · refine Set.union_subset ?_ (reach_subset hp.closed ?_)
      · intro y hcase
        rcases hcase with rfl | hy
        · exact Or.inr (subset_reach R _ List.mem_cons_self)
        · exact Or.inl hy
      · intro y hy
        rcases (hnext y).mp hy with hxy | hy
        · exact Or.inr (reach_closed R _ (subset_reach R _ List.mem_cons_self) hxy)
        · exact Or.inr (subset_reach R _ (List.mem_cons_of_mem x hy))
    · refine Set.union_subset (fun y hy => Or.inl (Or.inr hy))
        (reach_subset (hp.mark hnext).closed ?_)
      intro y hy
      rcases List.mem_cons.mp hy with rfl | hy
      · exact Or.inl (Or.inl rfl)
      · exact Or.inr (subset_reach R _ ((hnext y).mpr (Or.inr hy)))

end WayPoint.Foundations
