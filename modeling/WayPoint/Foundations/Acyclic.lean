import Mathlib.Data.Set.Basic
import Mathlib.Logic.Relation

/-! When a relation without cycles stays without them as one point gets new links. -/
namespace WayPoint.Foundations
open Relation
variable {α : Type}

def Acyclic (r : α → α → Prop) : Prop := ∀ a, ¬ TransGen r a a

/-- Links from `x` to the points of `P`, and from the points of `C` to `x`. -/
def hub (x : α) (P C : Set α) (a b : α) : Prop := (a = x ∧ b ∈ P) ∨ (b = x ∧ a ∈ C)

/-- No path leads from where a new link ends back to where one starts. -/
structure NoReturn (r : α → α → Prop) (x : α) (P C : Set α) : Prop where
  up : ∀ p ∈ P, ¬ ReflTransGen r p x
  down : ∀ c ∈ C, ¬ ReflTransGen r x c
  across : ∀ p ∈ P, ∀ c ∈ C, ¬ ReflTransGen r p c

variable {r : α → α → Prop} {x : α} {P C : Set α}

theorem acyclic_of_subset {q : α → α → Prop} (h : ∀ a b, r a b → q a b) (hq : Acyclic q) :
    Acyclic r := by
  intro a hcycle
  exact hq a (TransGen.mono h _ _ hcycle)

/-- From `a` one comes to `x`, perhaps by a new link. -/
private def Enters (r : α → α → Prop) (x : α) (C : Set α) (a : α) : Prop :=
  ReflTransGen r a x ∨ ∃ c ∈ C, ReflTransGen r a c

private def Leaves (r : α → α → Prop) (x : α) (P : Set α) (b : α) : Prop :=
  ReflTransGen r x b ∨ ∃ p ∈ P, ReflTransGen r p b

/-- From `a` to `b` through `x`, at least one of the two parts by a new link. -/
private def Passes (r : α → α → Prop) (x : α) (P C : Set α) (a b : α) : Prop :=
  ((∃ c ∈ C, ReflTransGen r a c) ∧ Leaves r x P b) ∨
    (Enters r x C a ∧ ∃ p ∈ P, ReflTransGen r p b)

private theorem Passes.enters {a b : α} (h : Passes r x P C a b) : Enters r x C a := by
  rcases h with ⟨hc, _⟩ | ⟨hin, _⟩
  · exact Or.inr hc
  · exact hin

private theorem Passes.tail {a b c : α} (h : Passes r x P C a b) (hbc : r b c) :
    Passes r x P C a c := by
  rcases h with ⟨hc, hout | ⟨p, hp, hpb⟩⟩ | ⟨hin, p, hp, hpb⟩
  · exact Or.inl ⟨hc, Or.inl (hout.tail hbc)⟩
  · exact Or.inl ⟨hc, Or.inr ⟨p, hp, hpb.tail hbc⟩⟩
  · exact Or.inr ⟨hin, p, hp, hpb.tail hbc⟩

private theorem path_or_passes (h : NoReturn r x P C) {a b : α}
    (hab : TransGen (fun a b => r a b ∨ hub x P C a b) a b) :
    TransGen r a b ∨ Passes r x P C a b := by
  induction hab with
  | single hstep =>
    rcases hstep with hold | ⟨rfl, hp⟩ | ⟨rfl, hc⟩
    · exact Or.inl (.single hold)
    · exact Or.inr (Or.inr ⟨Or.inl .refl, _, hp, .refl⟩)
    · exact Or.inr (Or.inl ⟨⟨_, hc, .refl⟩, Or.inl .refl⟩)
  | tail _ hstep ih =>
    rcases ih with hpath | hpass
    · rcases hstep with hold | ⟨rfl, hp⟩ | ⟨rfl, hc⟩
      · exact Or.inl (hpath.tail hold)
      · exact Or.inr (Or.inr ⟨Or.inl hpath.to_reflTransGen, _, hp, .refl⟩)
      · exact Or.inr (Or.inl ⟨⟨_, hc, hpath.to_reflTransGen⟩, Or.inl .refl⟩)
    · rcases hstep with hold | ⟨rfl, hp⟩ | ⟨rfl, hc⟩
      · exact Or.inr (hpass.tail hold)
      · exact Or.inr (Or.inr ⟨hpass.enters, _, hp, .refl⟩)
      · rcases hpass with ⟨hin, _⟩ | ⟨_, p, hp, hpc⟩
        · exact Or.inr (Or.inl ⟨hin, Or.inl .refl⟩)
        · exact absurd hpc (h.across p hp _ hc)

/-- Adding the links keeps the relation acyclic exactly if none of them can be returned from. -/
theorem acyclic_hub_iff : Acyclic (fun a b => r a b ∨ hub x P C a b) ↔
    Acyclic r ∧ NoReturn r x P C := by
  constructor
  · intro h
    have hold {a b : α} (hab : ReflTransGen r a b) :
        ReflTransGen (fun a b => r a b ∨ hub x P C a b) a b :=
      ReflTransGen.mono (fun _ _ => Or.inl) _ _ hab
    refine ⟨acyclic_of_subset (fun _ _ => Or.inl) h, fun p hp hpx => ?_, fun c hc hxc => ?_,
      fun p hp c hc hpc => ?_⟩
    · exact h x (.head' (Or.inr (Or.inl ⟨rfl, hp⟩)) (hold hpx))
    · exact h x (.tail' (hold hxc) (Or.inr (Or.inr ⟨rfl, hc⟩)))
    · exact h x (.head' (Or.inr (Or.inl ⟨rfl, hp⟩)) ((hold hpc).tail (Or.inr (Or.inr ⟨rfl, hc⟩))))
  · intro h a hcycle
    obtain ⟨hr, hreturn⟩ := h
    rcases path_or_passes hreturn hcycle with hpath | hpass
    · exact hr a hpath
    · rcases hpass with ⟨⟨c, hc, hac⟩, hxa | ⟨p, hp, hpa⟩⟩ | ⟨hax | ⟨c, hc, hac⟩, p, hp, hpa⟩
      · exact hreturn.down c hc (hxa.trans hac)
      · exact hreturn.across p hp c hc (hpa.trans hac)
      · exact hreturn.up p hp (hpa.trans hax)
      · exact hreturn.across p hp c hc (hpa.trans hac)

end WayPoint.Foundations
