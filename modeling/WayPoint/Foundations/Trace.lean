import WayPoint.Foundations.Program

/-! Calls that one state serves one after another, with everything that happened written down. -/
namespace WayPoint.Foundations
variable {C : Type} {Reply : C → Type} {σ : Type}

/-- One call, and the states before and after it. -/
structure Served {C : Type} (Reply : C → Type) (σ : Type) where
  call : C
  before : σ
  reply : Reply call
  after : σ

/-- From `s` the calls written down, the latest first, have led to a state. -/
inductive Trace (serves : Server Reply σ) (s : σ) : List (Served Reply σ) → σ → Prop where
  | nil : Trace serves s [] s
  | call {past : List (Served Reply σ)} {c : C} {t t' : σ} {r : Reply c}
      (earlier : Trace serves s past t) (served : serves c t r t') :
      Trace serves s (⟨c, t, r, t'⟩ :: past) t'

variable {serves : Server Reply σ} {s t : σ} {past : List (Served Reply σ)}

/-- An invariant of every call holds before and after each call, and at the end. -/
theorem Trace.invariant {I : σ → Prop} (h : Trace serves s past t) (hs : I s)
    (hI : ∀ c s r s', I s → serves c s r s' → I s') :
    I t ∧ ∀ e ∈ past, I e.before ∧ serves e.call e.before e.reply e.after ∧ I e.after := by
  induction h with
  | nil => exact ⟨hs, fun e he => by cases he⟩
  | call _ served ih =>
    have hafter := hI _ _ _ _ ih.1 served
    refine ⟨hafter, fun e he => ?_⟩
    rcases List.mem_cons.mp he with rfl | he
    · exact ⟨ih.1, served, hafter⟩
    · exact ih.2 e he

/-- Two properties of calls that agree on every call made in a good state, where the first keeps
the state good, hold of the same traces. -/
theorem Trace.forall_iff {I P : σ → Prop} {Q R : Served Reply σ → Prop}
    (h : Trace serves s past t) (hs : I s) (hP : P s)
    (hI : ∀ c s r s', I s → serves c s r s' → I s')
    (hQ : ∀ c s r s', I s → P s → serves c s r s' → (Q ⟨c, s, r, s'⟩ ↔ R ⟨c, s, r, s'⟩))
    (hkeep : ∀ e : Served Reply σ, Q e → P e.after) : (∀ e ∈ past, Q e) ↔ ∀ e ∈ past, R e := by
  have hboth : I t ∧ ((∀ e ∈ past, Q e) → P t) ∧ ((∀ e ∈ past, Q e) ↔ ∀ e ∈ past, R e) := by
    induction h with
    | nil => exact ⟨hs, fun _ => hP, by simp⟩
    | call _ served ih =>
      obtain ⟨hit, hgood, hiff⟩ := ih
      refine ⟨hI _ _ _ _ hit served, fun hall => hkeep _ (hall _ List.mem_cons_self), ?_⟩
      rw [List.forall_mem_cons, List.forall_mem_cons, hiff]
      refine and_congr_left fun hrest => ?_
      exact hQ _ _ _ _ hit (hgood (hiff.mpr hrest)) served
  exact hboth.2.2

/-- The calls of a list served by a function, written down after those of `past`. -/
def record (serve : (c : C) → σ → Reply c × σ) (s : σ) (past : List (Served Reply σ)) :
    List C → List (Served Reply σ) × σ
  | [] => (past, s)
  | c :: rest => record serve (serve c s).2 (⟨c, s, (serve c s).1, (serve c s).2⟩ :: past) rest

theorem trace_record {serve : (c : C) → σ → Reply c × σ}
    (hserve : ∀ c s, serves c s (serve c s).1 (serve c s).2) (calls : List C)
    (h : Trace serves s past t) :
    Trace serves s (record serve t past calls).1 (record serve t past calls).2 := by
  induction calls generalizing past t with
  | nil => exact h
  | cons c rest ih => exact ih (.call h (hserve c t))

end WayPoint.Foundations
