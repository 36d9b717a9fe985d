import Mathlib.Data.List.Forall2
import WayPoint.Foundations.History

/-! Programs that are started together and awaited in the order they were started. A list of turns
says whose call comes next; whoever is not done when the turns run out goes on in order. -/
namespace WayPoint.Foundations.Program
variable {C : Type} {Reply : C → Type} {α : Type}

/-- The next call of the program at place `i`, if there is one. -/
def turn : Nat → List (Program Reply α) → Program Reply (List (Program Reply α))
  | _, [] => pure []
  | 0, .done a :: ps => pure (.done a :: ps)
  | 0, .call c next :: ps => .call c fun r => .done (next r :: ps)
  | i + 1, p :: ps => do
    let qs ← turn i ps
    return p :: qs

def awaitAll : List (Program Reply α) → Program Reply (List α)
  | [] => pure []
  | p :: ps => do
    let a ← p
    let as ← awaitAll ps
    return a :: as

def spawnAll : List Nat → List (Program Reply α) → Program Reply (List α)
  | [], ps => awaitAll ps
  | i :: turns, ps => turn i ps >>= spawnAll turns

/-- Some of the calls `said` take `p` to `q`, in this order. -/
def Moves (said : List (Sigma Reply)) (p q : Program Reply α) : Prop :=
  ∃ part, List.Sublist part said ∧ ∀ rest a, q.Dialogue rest a → p.Dialogue (part ++ rest) a

theorem Moves.stay (said : List (Sigma Reply)) (p : Program Reply α) : Moves said p p :=
  ⟨[], List.nil_sublist _, fun _ _ h => h⟩

/-- Some of the calls `said`, in this order, are a whole run of `p`. -/
def Ends (said : List (Sigma Reply)) (p : Program Reply α) (a : α) : Prop :=
  ∃ part, List.Sublist part said ∧ p.Dialogue part a

theorem Moves.ends {first second : List (Sigma Reply)} {p q : Program Reply α} {a : α}
    (h : Moves first p q) (hq : Ends second q a) : Ends (first ++ second) p a := by
  obtain ⟨part, hpart, hp⟩ := h
  obtain ⟨rest, hrest, hdialogue⟩ := hq
  exact ⟨part ++ rest, hpart.append hrest, hp rest a hdialogue⟩

private theorem turn_moves {i : Nat} {ps qs : List (Program Reply α)} {said : List (Sigma Reply)}
    (h : (turn i ps).Dialogue said qs) : List.Forall₂ (Moves said) ps qs := by
  have hstay (ps : List (Program Reply α)) : List.Forall₂ (Moves said) ps ps :=
    List.forall₂_same.mpr fun p _ => .stay said p
  induction i, ps using turn.induct generalizing qs with
  | case1 i =>
    rw [turn] at h
    obtain ⟨_, rfl⟩ := dialogue_done_iff.mp h
    exact .nil
  | case2 a ps =>
    obtain ⟨_, rfl⟩ := dialogue_done_iff.mp h
    exact hstay _
  | case3 c next ps =>
    obtain ⟨r, rest, rfl, hdone⟩ := dialogue_call_iff.mp h
    obtain ⟨rfl, rfl⟩ := dialogue_done_iff.mp hdone
    exact .cons ⟨[⟨c, r⟩], .refl _, fun _ _ hnext => .call hnext⟩ (hstay ps)
  | case4 i p ps ih =>
    rw [turn] at h
    obtain ⟨qs', first, second, rfl, hturn, hdone⟩ := dialogue_bind_iff.mp h
    obtain ⟨rfl, rfl⟩ := dialogue_done_iff.mp hdone
    rw [List.append_nil] at *
    exact .cons (.stay first p) (ih hturn)

private theorem awaitAll_ends {ps : List (Program Reply α)} {said : List (Sigma Reply)} {as : List α}
    (h : (awaitAll ps).Dialogue said as) : List.Forall₂ (Ends said) ps as := by
  induction ps generalizing said as with
  | nil =>
    obtain ⟨_, rfl⟩ := dialogue_done_iff.mp h
    exact .nil
  | cons p ps ih =>
    obtain ⟨a, first, rest, rfl, hp, hrest⟩ := dialogue_bind_iff.mp h
    obtain ⟨as', second, last, rfl, hps, hdone⟩ := dialogue_bind_iff.mp hrest
    obtain ⟨rfl, rfl⟩ := dialogue_done_iff.mp hdone
    refine .cons ⟨first, List.sublist_append_left _ _, hp⟩ ((ih hps).imp fun q b hq => ?_)
    obtain ⟨part, hpart, hdialogue⟩ := hq
    refine ⟨part, ?_, hdialogue⟩
    rw [List.append_nil]
    exact hpart.trans (List.sublist_append_right _ _)

theorem ends_of_moves {ps qs : List (Program Reply α)} {as : List α}
    {first second : List (Sigma Reply)} (h : List.Forall₂ (Moves first) ps qs)
    (hq : List.Forall₂ (Ends second) qs as) : List.Forall₂ (Ends (first ++ second)) ps as := by
  induction h generalizing as with
  | nil =>
    cases hq
    exact .nil
  | cons hmoves _ ih =>
    cases hq with
    | cons hends hrest => exact .cons (hmoves.ends hends) (ih hrest)

/-- Whatever the turns, every program comes to its end by calls of its own. -/
theorem spawnAll_ends {turns : List Nat} {ps : List (Program Reply α)} {said : List (Sigma Reply)}
    {as : List α} (h : (spawnAll turns ps).Dialogue said as) : List.Forall₂ (Ends said) ps as := by
  induction turns generalizing ps said with
  | nil => exact awaitAll_ends h
  | cons i turns ih =>
    obtain ⟨qs, first, second, rfl, hturn, hrest⟩ := dialogue_bind_iff.mp h
    exact ends_of_moves (turn_moves hturn) (ih hrest)

/-- A program of one call ends with one of the replies given. -/
theorem Ends.reply {c : C} {r : Reply c} {said : List (Sigma Reply)} (h : Ends said (perform c) r) :
    ⟨c, r⟩ ∈ said := by
  obtain ⟨part, hpart, hdialogue⟩ := h
  obtain ⟨r', rest, rfl, hdone⟩ := dialogue_call_iff.mp hdialogue
  obtain ⟨rfl, rfl⟩ := dialogue_done_iff.mp hdone
  exact hpart.subset List.mem_cons_self

end WayPoint.Foundations.Program
