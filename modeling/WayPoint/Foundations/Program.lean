import Mathlib.Logic.Function.Basic
import Mathlib.Logic.Relation

/-! Sequential programs that touch shared state only through atomic calls to a server. A server
relates a call, the state it finds, its reply and the state it leaves. -/
namespace WayPoint.Foundations

/-- A program is its next atomic call and what it does with each reply. -/
inductive Program {C : Type} (Reply : C → Type) (α : Type) : Type where
  | done (a : α) : Program Reply α
  | call (c : C) (next : Reply c → Program Reply α) : Program Reply α

abbrev Server {C : Type} (Reply : C → Type) (σ : Type) :=
  (c : C) → σ → Reply c → σ → Prop

namespace Program
variable {C : Type} {Reply : C → Type} {σ α β : Type}

def bind : Program Reply α → (α → Program Reply β) → Program Reply β
  | .done a, f => f a
  | .call c next, f => .call c (fun r => (next r).bind f)

instance : Monad (Program Reply) where
  pure := .done
  bind := bind

def perform (c : C) : Program Reply (Reply c) := .call c .done

@[simp] theorem pure_eq (a : α) : (pure a : Program Reply α) = .done a := rfl

@[simp] theorem done_bind (a : α) (f : α → Program Reply β) : (Program.done a >>= f) = f a := rfl

@[simp] theorem call_bind (c : C) (next : Reply c → Program Reply α) (f : α → Program Reply β) :
    (Program.call c next >>= f) = .call c (fun r => next r >>= f) := rfl

@[simp] theorem perform_bind (c : C) (f : Reply c → Program Reply β) :
    (perform c >>= f) = .call c f := rfl

@[simp] theorem map_perform (c : C) (f : Reply c → α) :
    (f <$> perform c) = Program.call c (fun r => .done (f r)) := rfl

/-- A run of the whole program with nothing in between its calls. -/
inductive Runs (serves : Server Reply σ) : σ → Program Reply α → α → σ → Prop where
  | done (s : σ) (a : α) : Runs serves s (.done a) a s
  | call {c : C} {next : Reply c → Program Reply α} {s s' t : σ} {r : Reply c} {a : α}
      (h : serves c s r s') (rest : Runs serves s' (next r) a t) : Runs serves s (.call c next) a t

variable {serves : Server Reply σ}

@[simp] theorem runs_done_iff {s t : σ} {a b : α} :
    Runs serves s (.done a) b t ↔ b = a ∧ t = s := by
  constructor
  · intro h
    cases h with
    | done s a => exact ⟨rfl, rfl⟩
  · intro heq
    obtain ⟨rfl, rfl⟩ := heq
    exact .done _ _

@[simp] theorem runs_call_iff {c : C} {next : Reply c → Program Reply α} {s t : σ} {a : α} :
    Runs serves s (.call c next) a t ↔ ∃ r s', serves c s r s' ∧ Runs serves s' (next r) a t := by
  constructor
  · intro h
    cases h with
    | call served rest => exact ⟨_, _, served, rest⟩
  · intro hruns
    obtain ⟨r, s', h, rest⟩ := hruns
    exact .call h rest

theorem runs_perform_iff {c : C} {s t : σ} {r : Reply c} :
    Runs serves s (perform c) r t ↔ serves c s r t := by
  simp only [perform, runs_call_iff, runs_done_iff]
  constructor
  · intro hruns
    obtain ⟨_, _, h, rfl, rfl⟩ := hruns
    exact h
  · exact fun h => ⟨r, t, h, rfl, rfl⟩

theorem runs_bind_iff {p : Program Reply α} {f : α → Program Reply β} {s t : σ} {b : β} :
    Runs serves s (p >>= f) b t ↔ ∃ a u, Runs serves s p a u ∧ Runs serves u (f a) b t := by
  induction p generalizing s with
  | done a =>
    simp only [done_bind, runs_done_iff]
    constructor
    · exact fun h => ⟨a, s, ⟨rfl, rfl⟩, h⟩
    · intro hruns
      obtain ⟨_, _, ⟨rfl, rfl⟩, h⟩ := hruns
      exact h
  | call c next ih =>
    simp only [call_bind, runs_call_iff, ih]
    constructor
    · intro hruns
      obtain ⟨r, s', h, a, u, hp, hf⟩ := hruns
      exact ⟨a, u, ⟨r, s', h, hp⟩, hf⟩
    · intro hruns
      obtain ⟨a, u, ⟨r, s', h, hp⟩, hf⟩ := hruns
      exact ⟨r, s', h, a, u, hp, hf⟩

theorem runs_map_iff {p : Program Reply α} {f : α → β} {s t : σ} {b : β} :
    Runs serves s (f <$> p) b t ↔ ∃ a, b = f a ∧ Runs serves s p a t := by
  have he : (f <$> p) = p >>= fun a => .done (f a) := rfl
  simp only [he, runs_bind_iff, runs_done_iff]
  constructor
  · intro h
    obtain ⟨a, _, hp, rfl, rfl⟩ := h
    exact ⟨a, rfl, hp⟩
  · intro h
    obtain ⟨a, rfl, hp⟩ := h
    exact ⟨a, t, hp, rfl, rfl⟩

/-- Whatever every call preserves, every run preserves. -/
theorem Runs.preserves {I : σ → Prop} (hI : ∀ c s r s', I s → serves c s r s' → I s')
    {p : Program Reply α} {s t : σ} {a : α} (h : Runs serves s p a t) (hs : I s) : I t := by
  induction h with
  | done s a => exact hs
  | call hc _ ih => exact ih (hI _ _ _ _ hs hc)

/-- The answer and final state when every call is served by a function. -/
def eval (serve : (c : C) → σ → Reply c × σ) : Program Reply α → σ → α × σ
  | .done a, s => (a, s)
  | .call c next, s => (next (serve c s).1).eval serve (serve c s).2

theorem runs_eval {serve : (c : C) → σ → Reply c × σ}
    (h : ∀ c s, serves c s (serve c s).1 (serve c s).2) (p : Program Reply α) (s : σ) :
    Runs serves s p (p.eval serve s).1 (p.eval serve s).2 := by
  induction p generalizing s with
  | done a => exact .done s a
  | call c next ih => exact .call (h c s) (ih _ _)

/-- Every call the program can still make, whatever the replies, satisfies `P`. -/
def Within (P : C → Prop) : Program Reply α → Prop
  | .done _ => True
  | .call c next => P c ∧ ∀ r, (next r).Within P

theorem Within.mono {P Q : C → Prop} (hPQ : ∀ c, P c → Q c) {p : Program Reply α}
    (h : p.Within P) : p.Within Q := by
  induction p with
  | done a => exact True.intro
  | call c next ih => exact ⟨hPQ c h.1, fun r => ih r (h.2 r)⟩

theorem Within.bind {P : C → Prop} {p : Program Reply α} {f : α → Program Reply β}
    (hp : p.Within P) (hf : ∀ a, (f a).Within P) : (p >>= f).Within P := by
  induction p with
  | done a => exact hf a
  | call c next ih => exact ⟨hp.1, fun r => ih r (hp.2 r)⟩

end Program
end WayPoint.Foundations
