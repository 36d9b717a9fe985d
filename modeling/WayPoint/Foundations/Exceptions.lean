import Mathlib.Data.List.Forall2
import WayPoint.Foundations.History

/-! Programs that may raise an exception: how they, and their dialogues, are put together from those of
their parts. -/
namespace WayPoint.Foundations

section except
variable {ε α β : Type} {x : Except ε α} {f : α → Except ε β}

theorem bind_eq_ok_iff {b : β} : (x >>= f) = .ok b ↔ ∃ a, x = .ok a ∧ f a = .ok b := by
  cases x with
  | error e => simp [bind, Except.bind]
  | ok a => simp [bind, Except.bind]

theorem bind_eq_error_iff {e : ε} :
    (x >>= f) = .error e ↔ x = .error e ∨ ∃ a, x = .ok a ∧ f a = .error e := by
  cases x with
  | error e => simp [bind, Except.bind]
  | ok a => simp [bind, Except.bind]

theorem getDM_throw_eq_ok_iff {o : Option α} {e : ε} {a : α} :
    (o.getDM (throw e : Except ε α)) = .ok a ↔ o = some a := by
  cases o with
  | none => exact iff_of_false (fun h => by cases h) fun h => by cases h
  | some b => exact ⟨fun h => congrArg some (Except.ok.inj h), fun h => congrArg Except.ok (Option.some.inj h)⟩

theorem optionMapM_eq_ok_iff {g : α → Except ε β} {o : Option α} {out : Option β} :
    o.mapM g = .ok out ↔ (o = none ∧ out = none) ∨ ∃ a b, o = some a ∧ g a = .ok b ∧ out = some b := by
  cases o with
  | none => simp [pure, Except.pure, eq_comm]
  | some a =>
    cases hg : g a with
    | error e => simp [hg, Functor.map, Except.map]
    | ok b => simp [hg, Functor.map, Except.map, eq_comm]

/-- A list goes through when every entry does. -/
theorem exists_mapM_eq_ok {g : α → Except ε β} {xs : List α} (h : ∀ x ∈ xs, ∃ y, g x = .ok y) :
    ∃ ys, xs.mapM g = .ok ys := by
  induction xs with
  | nil => exact ⟨[], rfl⟩
  | cons x xs ih =>
    obtain ⟨y, hy⟩ := h x List.mem_cons_self
    obtain ⟨ys, hys⟩ := ih fun x hx => h x (List.mem_cons_of_mem _ hx)
    refine ⟨y :: ys, ?_⟩
    rw [List.mapM_cons, hy, hys]
    rfl

theorem exists_of_mem_mapM {g : α → Except ε β} {xs : List α} {ys : List β} (h : xs.mapM g = .ok ys)
    {y : β} (hy : y ∈ ys) : ∃ x ∈ xs, g x = .ok y := by
  induction xs generalizing ys with
  | nil =>
    cases h
    cases hy
  | cons x xs ih =>
    simp only [List.mapM_cons, bind_eq_ok_iff] at h
    obtain ⟨first, hfirst, rest, hrest, h⟩ := h
    cases h
    rcases List.mem_cons.mp hy with rfl | hy
    · exact ⟨x, List.mem_cons_self, hfirst⟩
    · obtain ⟨x', hx', hg⟩ := ih hrest hy
      exact ⟨x', List.mem_cons_of_mem _ hx', hg⟩

/-- Each entry leads to one of the result, in order. -/
theorem forall₂_of_mapM {g : α → Except ε β} {xs : List α} {ys : List β} (h : xs.mapM g = .ok ys) :
    List.Forall₂ (fun x y => g x = .ok y) xs ys := by
  induction xs generalizing ys with
  | nil =>
    cases h
    exact .nil
  | cons x xs ih =>
    simp only [List.mapM_cons, bind_eq_ok_iff] at h
    obtain ⟨y, hy, rest, hrest, h⟩ := h
    cases h
    exact .cons hy (ih hrest)

theorem mapM_congr {g k : α → Except ε β} {xs : List α} (h : ∀ x ∈ xs, g x = k x) :
    xs.mapM g = xs.mapM k := by
  induction xs with
  | nil => rfl
  | cons x xs ih =>
    rw [List.mapM_cons, List.mapM_cons, h x List.mem_cons_self, ih fun x hx => h x (List.mem_cons_of_mem _ hx)]

/-- The error of a list is that of one of its entries. -/
theorem exists_of_mapM_eq_error {g : α → Except ε β} {xs : List α} {e : ε} (h : xs.mapM g = .error e) :
    ∃ x ∈ xs, g x = .error e := by
  induction xs with
  | nil => cases h
  | cons x xs ih =>
    rw [List.mapM_cons, bind_eq_error_iff] at h
    rcases h with hx | ⟨y, _, h⟩
    · exact ⟨x, List.mem_cons_self, hx⟩
    · rcases bind_eq_error_iff.mp h with hxs | ⟨ys, _, h⟩
      · obtain ⟨x', hx', he⟩ := ih hxs
        exact ⟨x', List.mem_cons_of_mem _ hx', he⟩
      · cases h

end except

namespace Program

variable {C : Type} {Reply : C → Type} {ε α β : Type} {x : ExceptT ε (Program Reply) α}
  {f : α → ExceptT ε (Program Reply) β} {handler : ε → ExceptT ε (Program Reply) α}
  {said : List (Sigma Reply)} {P : C → Prop}

/-- An exception ends a sequence of two parts, and without one the second part goes on. -/
theorem dialogue_run_bind_iff {out : Except ε β} : (x >>= f).run.Dialogue said out ↔
    (∃ e, x.run.Dialogue said (.error e) ∧ out = .error e) ∨
      ∃ a first second, said = first ++ second ∧ x.run.Dialogue first (.ok a) ∧
        (f a).run.Dialogue second out := by
  change Dialogue (x.run >>= ExceptT.bindCont f) said out ↔ _
  rw [dialogue_bind_iff]
  constructor
  · intro h
    obtain ⟨r, first, second, rfl, hx, hf⟩ := h
    cases r with
    | error e =>
      obtain ⟨rfl, rfl⟩ := dialogue_done_iff.mp hf
      exact Or.inl ⟨e, by rwa [List.append_nil], rfl⟩
    | ok a => exact Or.inr ⟨a, first, second, rfl, hx, hf⟩
  · intro h
    rcases h with ⟨e, hx, rfl⟩ | ⟨a, first, second, rfl, hx, hf⟩
    · exact ⟨.error e, said, [], (List.append_nil said).symm, hx, .done _⟩
    · exact ⟨.ok a, first, second, rfl, hx, hf⟩

/-- A handler runs after an exception, and only then. -/
theorem dialogue_run_tryCatch_iff {out : Except ε α} :
    (tryCatch x handler).run.Dialogue said out ↔
      (∃ a, x.run.Dialogue said (.ok a) ∧ out = .ok a) ∨
        ∃ e first second, said = first ++ second ∧ x.run.Dialogue first (.error e) ∧
          (handler e).run.Dialogue second out := by
  have hunfold : (tryCatch x handler).run = x.run >>= fun r =>
      match r with
      | .ok a => .done (.ok a)
      | .error e => (handler e).run := rfl
  rw [hunfold, dialogue_bind_iff]
  constructor
  · intro h
    obtain ⟨r, first, second, rfl, hx, hf⟩ := h
    cases r with
    | error e => exact Or.inr ⟨e, first, second, rfl, hx, hf⟩
    | ok a =>
      obtain ⟨rfl, rfl⟩ := dialogue_done_iff.mp hf
      exact Or.inl ⟨a, by rwa [List.append_nil], rfl⟩
  · intro h
    rcases h with ⟨a, hx, rfl⟩ | ⟨e, first, second, rfl, hx, hf⟩
    · exact ⟨.ok a, said, [], (List.append_nil said).symm, hx, .done _⟩
    · exact ⟨.error e, first, second, rfl, hx, hf⟩

theorem dialogue_run_pure_iff {a : α} {out : Except ε α} :
    (pure a : ExceptT ε (Program Reply) α).run.Dialogue said out ↔ said = [] ∧ out = .ok a :=
  dialogue_done_iff

/-- A computation without calls. -/
theorem dialogue_run_lift_iff {r out : Except ε α} :
    (liftM r : ExceptT ε (Program Reply) α).run.Dialogue said out ↔ said = [] ∧ out = r :=
  dialogue_done_iff

theorem within_run_bind (hx : x.run.Within P) (hf : ∀ a, (f a).run.Within P) :
    (x >>= f).run.Within P := by
  change (x.run >>= ExceptT.bindCont f).Within P
  refine hx.bind fun r => ?_
  cases r with
  | error e => trivial
  | ok a => exact hf a

theorem within_run_tryCatch (hx : x.run.Within P) (hhandler : ∀ e, (handler e).run.Within P) :
    (tryCatch x handler).run.Within P := by
  refine Within.bind hx fun r => ?_
  cases r with
  | error e => exact hhandler e
  | ok a => trivial

theorem within_run_lift (r : Except ε α) : (liftM r : ExceptT ε (Program Reply) α).run.Within P := trivial

/-- Whatever the calls answer, what is returned is in `Q`. -/
def Returns (Q : α → Prop) (x : ExceptT ε (Program Reply) α) : Prop :=
  ∀ said a, x.run.Dialogue said (.ok a) → Q a

section returns
variable {Q : α → Prop} {R : β → Prop}

theorem returns_pure {a : α} (h : Q a) : Returns Q (pure a : ExceptT ε (Program Reply) α) := by
  intro said b hrun
  cases (dialogue_run_pure_iff.mp hrun).2
  exact h

/-- What a sequence returns its last part returns. -/
theorem returns_bind (h : ∀ a, Returns R (f a)) : Returns R (x >>= f) := by
  intro said b hrun
  rcases dialogue_run_bind_iff.mp hrun with ⟨_, _, hout⟩ | ⟨a, _, rest, _, _, hrest⟩
  · cases hout
  · exact h a rest b hrest

theorem returns_tryCatch (hx : Returns Q x) (hhandler : ∀ e, Returns Q (handler e)) :
    Returns Q (tryCatch x handler) := by
  intro said a hrun
  rcases dialogue_run_tryCatch_iff.mp hrun with ⟨b, hb, hout⟩ | ⟨e, _, rest, _, _, hrest⟩
  · cases hout
    exact hx said a hb
  · exact hhandler e rest a hrest

end returns
end Program
end WayPoint.Foundations
