import Mathlib.Logic.Relation
import WayPoint.Foundations.Program

/-! Any number of programs that share one state. Threads start at any time, their calls interleave
in any order, and the environment may change the state in between. -/
namespace WayPoint.Foundations

/-- The shared state, and what each thread still has to run: nothing before it is started. -/
structure Config {C : Type} (ι : Type) (Reply : C → Type) (σ α : Type) where
  state : σ
  thread : ι → Option (Program Reply α)

inductive Label (ι C : Type) where
  | start (i : ι)
  | call (i : ι) (c : C)
  | environment

namespace Config
variable {C ι : Type} {Reply : C → Type} {σ α : Type}

def initial (s : σ) : Config ι Reply σ α := ⟨s, fun _ => none⟩

def finished (cfg : Config ι Reply σ α) (i : ι) (a : α) : Prop := cfg.thread i = some (.done a)

instance [DecidableEq α] (cfg : Config ι Reply σ α) (i : ι) (a : α) :
    Decidable (cfg.finished i a) :=
  match h : cfg.thread i with
  | some (.done b) => decidable_of_iff (b = a) (by simp [finished, h])
  | some (.call _ _) => isFalse (by simp [finished, h])
  | none => isFalse (by simp [finished, h])

variable [DecidableEq ι]

def run (cfg : Config ι Reply σ α) (i : ι) (p : Program Reply α) : Config ι Reply σ α :=
  { cfg with thread := Function.update cfg.thread i (some p) }

@[simp] theorem run_state (cfg : Config ι Reply σ α) (i : ι) (p : Program Reply α) :
    (cfg.run i p).state = cfg.state := rfl

@[simp] theorem run_thread_self (cfg : Config ι Reply σ α) (i : ι) (p : Program Reply α) :
    (cfg.run i p).thread i = some p := Function.update_self i _ _

theorem run_thread_of_ne {i j : ι} (h : j ≠ i) (cfg : Config ι Reply σ α) (p : Program Reply α) :
    (cfg.run i p).thread j = cfg.thread j := Function.update_of_ne h _ _

end Config

/-- What a system is made of: the program of each thread, the server of its calls, and what else
may happen to the state. -/
structure System {C : Type} (ι : Type) (Reply : C → Type) (σ α : Type) where
  program : ι → Program Reply α
  serves : Server Reply σ
  environment : σ → σ → Prop

namespace System
variable {C ι : Type} {Reply : C → Type} {σ α : Type} [DecidableEq ι]

inductive Step (sys : System ι Reply σ α) :
    Config ι Reply σ α → Label ι C → Config ι Reply σ α → Prop where
  | start {cfg : Config ι Reply σ α} (i : ι) (h : cfg.thread i = none) :
      Step sys cfg (.start i) (cfg.run i (sys.program i))
  | call {cfg : Config ι Reply σ α} (i : ι) {c : C} {next : Reply c → Program Reply α}
      {r : Reply c} {s : σ} (h : cfg.thread i = some (.call c next))
      (served : sys.serves c cfg.state r s) :
      Step sys cfg (.call i c) (Config.run { cfg with state := s } i (next r))
  | environment {cfg : Config ι Reply σ α} {s : σ} (h : sys.environment cfg.state s) :
      Step sys cfg .environment { cfg with state := s }

/-- Runs of any length whose steps are all allowed. -/
def Reaches (sys : System ι Reply σ α) (allowed : Config ι Reply σ α → Label ι C → Prop) :
    Config ι Reply σ α → Config ι Reply σ α → Prop :=
  Relation.ReflTransGen (fun a b => ∃ l, allowed a l ∧ sys.Step a l b)

variable {sys : System ι Reply σ α} {allowed : Config ι Reply σ α → Label ι C → Prop}

/-- An invariant of every allowed step holds after every allowed run. -/
theorem Reaches.invariant {I : Config ι Reply σ α → Prop} {a b : Config ι Reply σ α}
    (h : sys.Reaches allowed a b) (ha : I a)
    (hstep : ∀ a l b, I a → allowed a l → sys.Step a l b → I b) : I b := by
  induction h with
  | refl => exact ha
  | tail _ hs ih =>
    obtain ⟨l, hl, hs⟩ := hs
    exact hstep _ _ _ ih hl hs

/-- What a program may call, its thread may call at every moment. -/
theorem Reaches.within {P : ι → C → Prop} (hP : ∀ i, (sys.program i).Within (P i)) {s : σ}
    {cfg : Config ι Reply σ α} (h : sys.Reaches allowed (.initial s) cfg) :
    ∀ i p, cfg.thread i = some p → p.Within (P i) := by
  have hrun {a : Config ι Reply σ α} {i : ι} {q : Program Reply α} (hq : q.Within (P i))
      (ha : ∀ j p, a.thread j = some p → p.Within (P j)) :
      ∀ j p, (a.run i q).thread j = some p → p.Within (P j) := by
    intro j p hp
    by_cases hj : j = i
    · subst hj
      rw [Config.run_thread_self] at hp
      cases hp
      exact hq
    · rw [Config.run_thread_of_ne hj] at hp
      exact ha j p hp
  refine h.invariant (I := fun cfg => ∀ i p, cfg.thread i = some p → p.Within (P i))
    (fun i p hp => by cases hp) ?_
  intro a l b ha _ hs
  cases hs with
  | start i hi => exact hrun (hP i) ha
  | call i hi served => exact hrun (a := { a with state := _ }) ((ha i _ hi).2 _) ha
  | environment henv => exact ha

/-- A run is also one under any other condition that its steps meet. -/
theorem Reaches.guard {allowed' : Config ι Reply σ α → Label ι C → Prop} {a b : Config ι Reply σ α}
    (h : sys.Reaches allowed a b)
    (hs : ∀ cfg l cfg', sys.Reaches allowed a cfg → sys.Step cfg l cfg' → allowed' cfg l) :
    sys.Reaches allowed' a b := by
  induction h with
  | refl => exact .refl
  | tail hrun hlast ih =>
    obtain ⟨l, _, hstep⟩ := hlast
    exact ih.tail ⟨l, hs _ _ _ hrun hstep, hstep⟩

/-- One turn of a thread with every call served by a function: it starts, calls, or is done. -/
def turn (sys : System ι Reply σ α) (serve : (c : C) → σ → Reply c × σ)
    (cfg : Config ι Reply σ α) (i : ι) : Config ι Reply σ α :=
  match cfg.thread i with
  | none => cfg.run i (sys.program i)
  | some (.done _) => cfg
  | some (.call c next) =>
    Config.run { cfg with state := (serve c cfg.state).2 } i (next (serve c cfg.state).1)

section turn
variable {serve : (c : C) → σ → Reply c × σ} {cfg : Config ι Reply σ α} {i : ι}

theorem turn_start (h : cfg.thread i = none) :
    sys.turn serve cfg i = cfg.run i (sys.program i) := by
  rw [turn, h]

theorem turn_done {a : α} (h : cfg.thread i = some (.done a)) : sys.turn serve cfg i = cfg := by
  rw [turn, h]

theorem turn_call {c : C} {next : Reply c → Program Reply α}
    (h : cfg.thread i = some (.call c next)) : sys.turn serve cfg i =
      Config.run { cfg with state := (serve c cfg.state).2 } i (next (serve c cfg.state).1) := by
  rw [turn, h]

end turn

/-- The turns of a schedule, one after the other. -/
def schedule (sys : System ι Reply σ α) (serve : (c : C) → σ → Reply c × σ)
    (cfg : Config ι Reply σ α) (turns : List ι) : Config ι Reply σ α :=
  turns.foldl (sys.turn serve) cfg

theorem reaches_turn {serve : (c : C) → σ → Reply c × σ}
    (h : ∀ c s, sys.serves c s (serve c s).1 (serve c s).2) (cfg : Config ι Reply σ α) (i : ι) :
    sys.Reaches (fun _ _ => True) cfg (sys.turn serve cfg i) := by
  unfold turn
  split
  · next hi => exact .single ⟨_, trivial, .start i hi⟩
  · exact .refl
  · next c next hi => exact .single ⟨_, trivial, .call i hi (h c cfg.state)⟩

theorem reaches_schedule {serve : (c : C) → σ → Reply c × σ}
    (h : ∀ c s, sys.serves c s (serve c s).1 (serve c s).2) (cfg : Config ι Reply σ α)
    (turns : List ι) : sys.Reaches (fun _ _ => True) cfg (sys.schedule serve cfg turns) := by
  induction turns generalizing cfg with
  | nil => exact .refl
  | cons i rest ih => exact (reaches_turn h cfg i).trans (ih _)

/-- A condition that holds before every turn of a schedule. -/
def Scheduled (sys : System ι Reply σ α) (serve : (c : C) → σ → Reply c × σ)
    (P : Config ι Reply σ α → ι → Prop) : Config ι Reply σ α → List ι → Prop
  | _, [] => True
  | cfg, i :: rest => P cfg i ∧ Scheduled sys serve P (sys.turn serve cfg i) rest

instance decidableScheduled (sys : System ι Reply σ α) (serve : (c : C) → σ → Reply c × σ)
    (P : Config ι Reply σ α → ι → Prop) [∀ cfg i, Decidable (P cfg i)] :
    ∀ cfg turns, Decidable (sys.Scheduled serve P cfg turns)
  | _, [] => isTrue True.intro
  | cfg, i :: rest =>
    have := decidableScheduled sys serve P (sys.turn serve cfg i) rest
    inferInstanceAs (Decidable (_ ∧ _))

theorem reaches_scheduled {serve : (c : C) → σ → Reply c × σ} {P : Config ι Reply σ α → ι → Prop}
    (h : ∀ c s, sys.serves c s (serve c s).1 (serve c s).2)
    (hP : ∀ cfg i, P cfg i → allowed cfg (.start i) ∧ ∀ c, allowed cfg (.call i c))
    {cfg : Config ι Reply σ α} {turns : List ι} (hturns : sys.Scheduled serve P cfg turns) :
    sys.Reaches allowed cfg (sys.schedule serve cfg turns) := by
  induction turns generalizing cfg with
  | nil => exact .refl
  | cons i rest ih =>
    obtain ⟨hi, hrest⟩ := hturns
    refine Relation.ReflTransGen.trans ?_ (ih hrest)
    unfold turn
    split
    · next hnone => exact .single ⟨_, (hP cfg i hi).1, .start i hnone⟩
    · exact .refl
    · next c next hcall => exact .single ⟨_, (hP cfg i hi).2 c, .call i hcall (h c cfg.state)⟩

end System
end WayPoint.Foundations
