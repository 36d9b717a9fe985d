import Mathlib.Data.List.Forall2
import Mathlib.Data.Option.Defs
import WayPoint.Foundations.Turns

/-! Two runs side by side. The threads of both take the same turns, apart from hidden threads of the
first that the second leaves out, and stay related as long as related calls are served alike. -/
namespace WayPoint.Foundations
variable {C D ι μ ν : Type} {Reply : C → Type} {Reply' : D → Type} {σ τ α β : Type}

/-- Programs whose calls are related, and which go on related after related replies. -/
def Program.Related (Call : C → D → Prop) (Rep : (c : C) → (d : D) → Reply c → Reply' d → Prop)
    (Ans : α → β → Prop) : Program Reply α → Program Reply' β → Prop
  | .done a, .done b => Ans a b
  | .call c next, .call d next' =>
    Call c d ∧ ∀ r r', Rep c d r r' → (next r).Related Call Rep Ans (next' r')
  | _, _ => False

theorem Program.Related.of_done {Call : C → D → Prop}
    {Rep : (c : C) → (d : D) → Reply c → Reply' d → Prop} {Ans : α → β → Prop} {a : α}
    {q : Program Reply' β} (h : (Program.done a).Related Call Rep Ans q) : ∃ b, q = .done b ∧ Ans a b := by
  cases q with
  | done b => exact ⟨b, rfl, h⟩
  | call d next' => exact absurd h id

theorem Program.Related.to_done {Call : C → D → Prop}
    {Rep : (c : C) → (d : D) → Reply c → Reply' d → Prop} {Ans : α → β → Prop} {b : β}
    {p : Program Reply α} (h : p.Related Call Rep Ans (.done b)) : ∃ a, p = .done a ∧ Ans a b := by
  cases p with
  | done a => exact ⟨a, rfl, h⟩
  | call c next => exact absurd h id

/-- A program is related to itself when all it may call is answered alike. -/
theorem Program.Related.refl {Call : C → C → Prop}
    {Rep : (c d : C) → Reply c → Reply d → Prop} {Ans : α → α → Prop} (hAns : ∀ a, Ans a a)
    {p : Program Reply α} (h : p.Within (fun c => Call c c ∧ ∀ r r', Rep c c r r' → r = r')) :
    p.Related Call Rep Ans p := by
  induction p with
  | done a => exact hAns a
  | call c next ih =>
    refine ⟨h.1.1, fun r r' hr => ?_⟩
    obtain rfl := h.1.2 r r' hr
    exact ih r (h.2 r)

/-- Programs that have to make the same calls and give the same answers are one program. -/
theorem Program.Related.eq {Call : C → C → Prop} {Rep : (c d : C) → Reply c → Reply d → Prop}
    {Ans : α → α → Prop} (hCall : ∀ c d, Call c d → d = c) (hRep : ∀ c r, Rep c c r r)
    (hAns : ∀ a b, Ans a b → b = a) {p q : Program Reply α} (h : p.Related Call Rep Ans q) : q = p := by
  induction p generalizing q with
  | done a =>
    obtain ⟨b, rfl, hb⟩ := h.of_done
    exact congrArg Program.done (hAns a b hb)
  | call c next ih =>
    cases q with
    | done b => exact absurd h id
    | call d next' =>
      obtain rfl := hCall c d h.1
      exact congrArg (Program.call d) (funext fun r => ih r (h.2 r r (hRep d r)))

theorem Program.Related.bind {γ δ : Type} {Call : C → D → Prop}
    {Rep : (c : C) → (d : D) → Reply c → Reply' d → Prop} {Mid : α → β → Prop} {Ans : γ → δ → Prop}
    {p : Program Reply α} {q : Program Reply' β} {f : α → Program Reply γ} {g : β → Program Reply' δ}
    (h : p.Related Call Rep Mid q) (hfg : ∀ a b, Mid a b → (f a).Related Call Rep Ans (g b)) :
    (p >>= f).Related Call Rep Ans (q >>= g) := by
  induction p generalizing q with
  | done a =>
    obtain ⟨b, rfl, hb⟩ := h.of_done
    exact hfg a b hb
  | call c next ih =>
    cases q with
    | done b => exact absurd h id
    | call d next' => exact ⟨h.1, fun r r' hr => ih r (h.2 r r' hr)⟩

section
variable (R : σ → τ → Prop) (Call : ι → C → D → Prop)
  (Rep : (c : C) → (d : D) → Reply c → Reply' d → Prop) (Ans : ι → α → β → Prop) (visible : ι → Bool)
  (Hidden : C → Prop)

/-- Related states, the visible threads at related places, and hidden ones that only make hidden
calls. -/
structure Config.Alike (cfg : Config ι Reply σ α) (cfg' : Config ι Reply' τ β) : Prop where
  state : R cfg.state cfg'.state
  shown : ∀ i, visible i →
    Option.Rel (Program.Related (Call i) Rep (Ans i)) (cfg.thread i) (cfg'.thread i)
  hidden : ∀ i, ¬ visible i → ∀ p ∈ cfg.thread i, p.Within Hidden

end

variable {R : σ → τ → Prop} {Call : ι → C → D → Prop}
  {Rep : (c : C) → (d : D) → Reply c → Reply' d → Prop} {Ans : ι → α → β → Prop}
  {visible : ι → Bool}
  {Hidden : C → Prop} {cfg : Config ι Reply σ α} {cfg' : Config ι Reply' τ β}

namespace Config.Alike

theorem finished {i : ι} {a : α} (h : Alike R Call Rep Ans visible Hidden cfg cfg')
    (hi : visible i) (ha : cfg.finished i a) : ∃ b, cfg'.finished i b ∧ Ans i a b := by
  have hthread := h.shown i hi
  rw [show cfg.thread i = some (.done a) from ha] at hthread
  generalize hq : cfg'.thread i = q at hthread
  cases hthread with
  | some hrel =>
    obtain ⟨b, rfl, hb⟩ := hrel.of_done
    exact ⟨b, hq, hb⟩

theorem finished_back {i : ι} {b : β} (h : Alike R Call Rep Ans visible Hidden cfg cfg')
    (hi : visible i) (hb : cfg'.finished i b) : ∃ a, cfg.finished i a ∧ Ans i a b := by
  have hthread := h.shown i hi
  rw [show cfg'.thread i = some (.done b) from hb] at hthread
  generalize hp : cfg.thread i = p at hthread
  cases hthread with
  | some hrel =>
    obtain ⟨a, rfl, ha⟩ := hrel.to_done
    exact ⟨a, hp, ha⟩

/-- A thread that has to make the same calls and give the same answers is at the same place. -/
theorem thread_eq {Call : ι → C → C → Prop} {Rep : (c d : C) → Reply c → Reply d → Prop}
    {Ans : ι → α → α → Prop} {cfg : Config ι Reply σ α} {cfg' : Config ι Reply τ α} {i : ι}
    (h : Alike R Call Rep Ans visible Hidden cfg cfg') (hi : visible i)
    (hCall : ∀ c d, Call i c d → d = c) (hRep : ∀ c r, Rep c c r r)
    (hAns : ∀ a b, Ans i a b → b = a) : cfg'.thread i = cfg.thread i := by
  have hthread := h.shown i hi
  generalize cfg.thread i = p, cfg'.thread i = q at hthread ⊢
  cases hthread with
  | some hrel => exact congrArg some (hrel.eq hCall hRep hAns)
  | none => rfl

variable [DecidableEq ι]

/-- A visible thread is told how to go on in both. -/
theorem run {i : ι} {s : σ} {t : τ} {p : Program Reply α} {q : Program Reply' β}
    (h : Alike R Call Rep Ans visible Hidden cfg cfg') (hi : visible i) (hR : R s t)
    (hp : p.Related (Call i) Rep (Ans i) q) :
    Alike R Call Rep Ans visible Hidden (Config.run { cfg with state := s } i p)
      (Config.run { cfg' with state := t } i q) where
  state := hR
  shown j hj := by
    by_cases hji : j = i
    · subst hji
      rw [run_thread_self, run_thread_self]
      exact .some hp
    · rw [run_thread_of_ne hji, run_thread_of_ne hji]
      exact h.shown j hj
  hidden j hj p hp := by
    have hji : j ≠ i := fun he => hj (he ▸ hi)
    rw [run_thread_of_ne hji] at hp
    exact h.hidden j hj p hp

/-- A hidden thread goes on by itself. -/
private theorem run_hidden {i : ι} {s : σ} {p : Program Reply α}
    (h : Alike R Call Rep Ans visible Hidden cfg cfg') (hi : ¬ visible i) (hR : R s cfg'.state)
    (hp : p.Within Hidden) :
    Alike R Call Rep Ans visible Hidden (Config.run { cfg with state := s } i p) cfg' where
  state := hR
  shown j hj := by
    have hji : j ≠ i := fun he => hi (he ▸ hj)
    rw [run_thread_of_ne hji]
    exact h.shown j hj
  hidden j hj q hq := by
    by_cases hji : j = i
    · subst hji
      rw [run_thread_self] at hq
      cases hq
      exact hp
    · rw [run_thread_of_ne hji] at hq
      exact h.hidden j hj q hq

end Config.Alike

namespace System
variable [DecidableEq ι] {sys : System ι Reply σ α} {sys' : System ι Reply' τ β}
  {serve : μ → (c : C) → σ → Reply c × σ} {serve' : ν → (d : D) → τ → Reply' d × τ}
  {Choice : ι → μ → ν → Prop}

section turn
variable (hprogram : ∀ i, visible i → (sys.program i).Related (Call i) Rep (Ans i) (sys'.program i))
  (hserve : ∀ i c d m n s t, visible i → Choice i m n → Call i c d → R s t →
    Rep c d (serve m c s).1 (serve' n d t).1 ∧ R (serve m c s).2 (serve' n d t).2)
  (hhidden : ∀ i, ¬ visible i → (sys.program i).Within Hidden)
  (hquiet : ∀ c m s t, Hidden c → R s t → R (serve m c s).2 t)
  (h : Config.Alike R Call Rep Ans visible Hidden cfg cfg')
include h

include hprogram hserve in
private theorem turn_alike {i : ι} {m : μ} {n : ν} (hi : visible i) (hm : Choice i m n) :
    Config.Alike R Call Rep Ans visible Hidden (sys.turn (serve m) cfg i)
      (sys'.turn (serve' n) cfg' i) := by
  have hthread := h.shown i hi
  rcases hp : cfg.thread i with _ | a | ⟨c, next⟩ <;>
    rcases hq : cfg'.thread i with _ | b | ⟨d, next'⟩ <;> rw [hp, hq] at hthread
  · rw [turn_start hp, turn_start hq]
    exact h.run hi h.state (hprogram i hi)
  · cases hthread
  · cases hthread
  · cases hthread
  · rw [turn_done hp, turn_done hq]
    exact h
  · cases hthread with
    | some hrel => exact absurd hrel id
  · cases hthread
  · cases hthread with
    | some hrel => exact absurd hrel id
  · cases hthread with
    | some hrel =>
      obtain ⟨hcall, hnext⟩ := hrel
      obtain ⟨hrep, hstate⟩ := hserve i c d m n _ _ hi hm hcall h.state
      rw [turn_call hp, turn_call hq]
      exact h.run hi hstate (hnext _ _ hrep)

include hhidden hquiet in
private theorem turn_hidden {i : ι} (m : μ) (hi : ¬ visible i) :
    Config.Alike R Call Rep Ans visible Hidden (sys.turn (serve m) cfg i) cfg' := by
  rcases hp : cfg.thread i with _ | a | ⟨c, next⟩
  · rw [turn_start hp]
    exact h.run_hidden hi h.state (hhidden i hi)
  · rw [turn_done hp]
    exact h
  · obtain ⟨hc, hnext⟩ := h.hidden i hi _ hp
    rw [turn_call hp]
    exact h.run_hidden hi (hquiet c m _ _ hc h.state) (hnext _)

variable (Choice) in
include hprogram hserve hhidden hquiet in
/-- After the same turns, those of hidden threads left out of the second run, both are alike. -/
theorem timetable_alike {turns : List (ι × μ)} {turns' : List (ι × ν)}
    (hturns : List.Forall₂ (fun a b => a.1 = b.1 ∧ Choice a.1 a.2 b.2)
      (turns.filter (fun turn => visible turn.1)) turns') :
    Config.Alike R Call Rep Ans visible Hidden (sys.timetable serve cfg turns)
      (sys'.timetable serve' cfg' turns') := by
  induction turns generalizing cfg cfg' turns' with
  | nil =>
    cases hturns
    exact h
  | cons turn rest ih =>
    obtain ⟨i, m⟩ := turn
    by_cases hi : visible i
    · rw [List.filter_cons_of_pos (p := fun turn : ι × μ => visible turn.1) hi] at hturns
      cases hturns with
      | cons hturn hrest =>
        obtain ⟨rfl, hm⟩ := hturn
        exact ih (turn_alike hprogram hserve h hi hm) hrest
    · rw [List.filter_cons_of_neg (p := fun turn : ι × μ => visible turn.1) hi] at hturns
      exact ih (turn_hidden hhidden hquiet h m hi) hturns

end turn

end System
end WayPoint.Foundations
