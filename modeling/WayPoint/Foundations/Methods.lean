import WayPoint.Foundations.Exceptions

/-! Methods of an object: programs that make calls, change the object's fields and may raise. What holds
of a method is said about everything that was called so far and about the fields. -/
namespace WayPoint.Foundations
variable {C : Type} {Reply : C → Type} {σ ε α β : Type}

/-- A method keeps the fields as they were when it raised. -/
def Method {C : Type} (Reply : C → Type) (σ ε α : Type) : Type := σ → Program Reply (Except ε α × σ)

namespace Method

instance : Monad (Method Reply σ ε) where
  pure a := fun s => .done (.ok a, s)
  bind x f := fun s => (x s).bind fun
    | (.ok a, s) => f a s
    | (.error e, s) => .done (.error e, s)

instance : MonadExceptOf ε (Method Reply σ ε) where
  throw e := fun s => .done (.error e, s)
  tryCatch x handler := fun s => (x s).bind fun
    | (.ok a, s) => .done (.ok a, s)
    | (.error e, s) => handler e s

/-- A `finally`: an exception of the last part replaces what came before it. -/
def finally_ (x : Method Reply σ ε α) (last : Method Reply σ ε Unit) : Method Reply σ ε α := fun s =>
  (x s).bind fun (r, s) => (last s).bind fun
    | (.ok _, s) => .done (r, s)
    | (.error e, s) => .done (.error e, s)

def fields : Method Reply σ ε σ := fun s => .done (.ok s, s)

def update (f : σ → σ) : Method Reply σ ε Unit := fun s => .done (.ok (), f s)

def raise (r : Except ε α) : Method Reply σ ε α := fun s => .done (r, s)

def perform (c : C) : Method Reply σ ε (Reply c) := fun s => .call c fun r => .done (.ok r, s)

/-- What is known of the calls so far, the first one first, and of the fields. -/
abbrev Assertion {C : Type} (Reply : C → Type) (σ : Type) := List (Sigma Reply) → σ → Prop

/-- From where `P` holds, `x` returns where `Q` holds or raises where `E` does, if every reply it got is
possible. -/
def Triple (possible : Sigma Reply → Prop) (P : Assertion Reply σ) (x : Method Reply σ ε α)
    (Q : α → Assertion Reply σ) (E : ε → Assertion Reply σ) : Prop :=
  ∀ past s said r s', P past s → (x s).Dialogue said (r, s') → (∀ e ∈ said, possible e) →
    match r with
    | .ok a => Q a (past ++ said) s'
    | .error e => E e (past ++ said) s'

section rules
variable {possible : Sigma Reply → Prop} {P P' : Assertion Reply σ} {Q Q' : α → Assertion Reply σ}
  {R : β → Assertion Reply σ} {E E' : ε → Assertion Reply σ} {x : Method Reply σ ε α}
  {f : α → Method Reply σ ε β} {handler : ε → Method Reply σ ε α}

theorem triple_pure {a : α} (h : ∀ past s, P past s → Q a past s) :
    Triple possible P (pure a : Method Reply σ ε α) Q E := by
  intro past s said r s' hP hrun _
  obtain ⟨rfl, heq⟩ := Program.dialogue_done_iff.mp hrun
  cases heq
  simpa using h past _ hP

theorem triple_throw {e : ε} (h : ∀ past s, P past s → E e past s) :
    Triple possible P (throw e : Method Reply σ ε α) Q E := by
  intro past s said r s' hP hrun _
  obtain ⟨rfl, heq⟩ := Program.dialogue_done_iff.mp hrun
  cases heq
  simpa using h past _ hP

theorem triple_fields {Q : σ → Assertion Reply σ} (h : ∀ past s, P past s → Q s past s) :
    Triple possible P (fields : Method Reply σ ε σ) Q E := by
  intro past s said r s' hP hrun _
  obtain ⟨rfl, heq⟩ := Program.dialogue_done_iff.mp hrun
  cases heq
  simpa using h past _ hP

theorem triple_update {g : σ → σ} {Q : Unit → Assertion Reply σ} (h : ∀ past s, P past s → Q () past (g s)) :
    Triple possible P (update g : Method Reply σ ε Unit) Q E := by
  intro past s said r s' hP hrun _
  obtain ⟨rfl, heq⟩ := Program.dialogue_done_iff.mp hrun
  cases heq
  simpa using h past _ hP

theorem triple_raise {r : Except ε α} (hok : ∀ a, r = .ok a → ∀ past s, P past s → Q a past s)
    (herror : ∀ e, r = .error e → ∀ past s, P past s → E e past s) :
    Triple possible P (raise r : Method Reply σ ε α) Q E := by
  intro past s said out s' hP hrun _
  obtain ⟨rfl, heq⟩ := Program.dialogue_done_iff.mp hrun
  cases heq
  rw [List.append_nil]
  cases r with
  | ok a => exact hok a rfl past _ hP
  | error e => exact herror e rfl past _ hP

theorem triple_perform {c : C} {Q : Reply c → Assertion Reply σ}
    (h : ∀ past s r, P past s → possible ⟨c, r⟩ → Q r (past ++ [⟨c, r⟩]) s) :
    Triple possible P (perform c : Method Reply σ ε (Reply c)) Q E := by
  intro past s said r s' hP hrun hpossible
  obtain ⟨reply, rest, rfl, hdone⟩ := Program.dialogue_call_iff.mp hrun
  obtain ⟨rfl, heq⟩ := Program.dialogue_done_iff.mp hdone
  cases heq
  exact h past _ reply hP (hpossible _ List.mem_cons_self)

theorem triple_bind (hx : Triple possible P x Q E) (hf : ∀ a, Triple possible (Q a) (f a) R E) :
    Triple possible P (x >>= f) R E := by
  intro past s said r s' hP hrun hpossible
  obtain ⟨⟨out, t⟩, first, second, rfl, hfirst, hsecond⟩ := Program.dialogue_bind_iff.mp hrun
  have hout := hx past s first out t hP hfirst fun e he => hpossible e (List.mem_append_left _ he)
  cases out with
  | error e =>
    obtain ⟨rfl, heq⟩ := Program.dialogue_done_iff.mp hsecond
    cases heq
    rwa [List.append_nil]
  | ok a =>
    have hlast := hf a (past ++ first) t second r s' hout hsecond fun e he =>
      hpossible e (List.mem_append_right _ he)
    rwa [List.append_assoc] at hlast

theorem triple_tryCatch (hx : Triple possible P x Q E) (hhandler : ∀ e, Triple possible (E e) (handler e) Q E') :
    Triple possible P (tryCatch x handler) Q E' := by
  intro past s said r s' hP hrun hpossible
  obtain ⟨⟨out, t⟩, first, second, rfl, hfirst, hsecond⟩ := Program.dialogue_bind_iff.mp hrun
  have hout := hx past s first out t hP hfirst fun e he => hpossible e (List.mem_append_left _ he)
  cases out with
  | ok a =>
    obtain ⟨rfl, heq⟩ := Program.dialogue_done_iff.mp hsecond
    cases heq
    rwa [List.append_nil]
  | error e =>
    have hlast := hhandler e (past ++ first) t second r s' hout hsecond fun e he =>
      hpossible e (List.mem_append_right _ he)
    rwa [List.append_assoc] at hlast

/-- What the last part of a `finally` makes of either outcome holds in the end, whatever the outcome. -/
theorem triple_finally {last : Method Reply σ ε Unit} {I J : Assertion Reply σ}
    (hx : Triple possible P x (fun _ => I) (fun _ => I)) (hlast : Triple possible I last (fun _ => J) (fun _ => J)) :
    Triple possible P (finally_ x last) (fun _ => J) (fun _ => J) := by
  intro past s said r s' hP hrun hpossible
  obtain ⟨⟨out, t⟩, first, rest, rfl, hfirst, hrest⟩ := Program.dialogue_bind_iff.mp hrun
  obtain ⟨⟨done, u⟩, second, third, rfl, hsecond, hthird⟩ := Program.dialogue_bind_iff.mp hrest
  have hI : I (past ++ first) t := by
    have hout := hx past s first out t hP hfirst fun e he => hpossible e (List.mem_append_left _ he)
    cases out with
    | ok a => exact hout
    | error e => exact hout
  have hJ := hlast (past ++ first) t second done u hI hsecond fun e he =>
    hpossible e (List.mem_append_right _ (List.mem_append_left _ he))
  rw [List.append_assoc] at hJ
  cases done with
  | ok a =>
    obtain ⟨rfl, heq⟩ := Program.dialogue_done_iff.mp hthird
    cases heq
    rw [List.append_nil]
    cases r with
    | ok a => exact hJ
    | error e => exact hJ
  | error e =>
    obtain ⟨rfl, heq⟩ := Program.dialogue_done_iff.mp hthird
    cases heq
    rwa [List.append_nil]

theorem Triple.conseq (h : Triple possible P' x Q' E') (hP : ∀ past s, P past s → P' past s)
    (hQ : ∀ a past s, Q' a past s → Q a past s) (hE : ∀ e past s, E' e past s → E e past s) :
    Triple possible P x Q E := by
  intro past s said r s' hpre hrun hpossible
  have hout := h past s said r s' (hP past s hpre) hrun hpossible
  cases r with
  | ok a => exact hQ a _ _ hout
  | error e => exact hE e _ _ hout

theorem triple_exists {ι : Type} {P : ι → Assertion Reply σ} (h : ∀ i, Triple possible (P i) x Q E) :
    Triple possible (fun past s => ∃ i, P i past s) x Q E := by
  intro past s said r s' hP
  obtain ⟨i, hi⟩ := hP
  exact h i past s said r s' hi

theorem triple_or (h : Triple possible P x Q E) (h' : Triple possible P' x Q E) :
    Triple possible (fun past s => P past s ∨ P' past s) x Q E := by
  intro past s said r s' hP
  rcases hP with hP | hP
  · exact h past s said r s' hP
  · exact h' past s said r s' hP

/-- A fact that does not depend on what happens. -/
theorem triple_of_fact {fact : Prop} (h : fact → Triple possible P x Q E) :
    Triple possible (fun past s => fact ∧ P past s) x Q E := by
  intro past s said r s' hP
  exact h hP.1 past s said r s' hP.2

end rules
end Method
end WayPoint.Foundations
