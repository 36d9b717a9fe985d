import WayPoint.Foundations.Interleaving

/-! Serial executions, and the rule that shows interleaved ones to be serializable: every step
either leaves the serial execution alone or appends one whole run to it. -/
namespace WayPoint.Foundations
namespace System
variable {C ι : Type} {Reply : C → Type} {σ α : Type}

/-- Whole programs one after another, each at most once; the latest comes first. -/
inductive Serial (sys : System ι Reply σ α) (s : σ) : List (ι × α) → σ → Prop where
  | nil : Serial sys s [] s
  | cons {history : List (ι × α)} {i : ι} {a : α} {t u : σ} (earlier : Serial sys s history t)
      (fresh : i ∉ history.map Prod.fst) (run : Program.Runs sys.serves t (sys.program i) a u) :
      Serial sys s ((i, a) :: history) u

variable {sys : System ι Reply σ α}

/-- What every whole run preserves, a serial execution preserves. -/
theorem Serial.preserves {I : σ → Prop} {s t : σ} {history : List (ι × α)}
    (h : sys.Serial s history t) (hs : I s)
    (hI : ∀ i t a u, I t → Program.Runs sys.serves t (sys.program i) a u → I u) : I t := by
  induction h with
  | nil => exact hs
  | cons _ _ run ih => exact hI _ _ _ _ ih run

/-- A serial execution runs each program once, so it holds one answer of each. -/
theorem Serial.functional {s t : σ} {history : List (ι × α)} (h : sys.Serial s history t) {i : ι}
    {a b : α} (ha : (i, a) ∈ history) (hb : (i, b) ∈ history) : a = b := by
  induction h with
  | nil => cases ha
  | @cons history _ _ _ _ _ fresh _ ih =>
    have hfresh {c : α} (hc : (i, c) ∈ history) := List.mem_map_of_mem (f := Prod.fst) hc
    rcases List.mem_cons.mp ha with hlast | hearlier <;>
      rcases List.mem_cons.mp hb with hlast' | hearlier'
    · cases hlast
      cases hlast'
      rfl
    · cases hlast
      exact absurd (hfresh hearlier') fresh
    · cases hlast'
      exact absurd (hfresh hearlier) fresh
    · exact ih hearlier hearlier'

/-- A history and its state stay, or one fresh run is added to them. -/
def Appends (sys : System ι Reply σ α) (history : List (ι × α)) (t : σ) (history' : List (ι × α))
    (t' : σ) : Prop :=
  (history' = history ∧ t' = t) ∨ ∃ i a, history' = (i, a) :: history ∧
    i ∉ history.map Prod.fst ∧ Program.Runs sys.serves t (sys.program i) a t'

theorem Serial.appends {s t t' : σ} {history history' : List (ι × α)} (h : sys.Serial s history t)
    (ha : sys.Appends history t history' t') : sys.Serial s history' t' := by
  rcases ha with ⟨rfl, rfl⟩ | ⟨i, a, rfl, hfresh, run⟩
  · exact h
  · exact .cons h hfresh run

variable [DecidableEq ι] {allowed : Config ι Reply σ α → Label ι C → Prop}

/-- Simulation of an interleaved run by a serial one. -/
theorem Reaches.serial {R : Config ι Reply σ α → List (ι × α) → σ → Prop}
    {a b : Config ι Reply σ α} {s : σ} (h : sys.Reaches allowed a b) (ha : R a [] s)
    (hstep : ∀ cfg l cfg' history t, sys.Serial s history t → R cfg history t → allowed cfg l →
      sys.Step cfg l cfg' → ∃ history' t', sys.Appends history t history' t' ∧ R cfg' history' t') :
    ∃ history t, sys.Serial s history t ∧ R b history t := by
  induction h with
  | refl => exact ⟨[], s, .nil, ha⟩
  | tail _ hs ih =>
    obtain ⟨history, t, hserial, hR⟩ := ih
    obtain ⟨l, hl, hs⟩ := hs
    obtain ⟨history', t', happ, hR'⟩ := hstep _ _ _ _ _ hserial hR hl hs
    exact ⟨history', t', hserial.appends happ, hR'⟩

end System
end WayPoint.Foundations
