import WayPoint.Foundations.History
import WayPoint.Foundations.Interleaving
import WayPoint.Foundations.Trace

/-! Runs of a system with every call written down, and runs given by the turns of its threads. What
the server may choose at a turn, such as the readings of a clock, is part of the turn. -/
namespace WayPoint.Foundations
variable {C ι μ : Type} {Reply : C → Type} {σ α : Type} [DecidableEq ι]

/-- The calls one thread has made, the first one first. -/
def callsOf (i : ι) (past : List (ι × Served Reply σ)) : List (Served Reply σ) :=
  (past.reverse.filter (fun e => decide (e.1 = i))).map Prod.snd

theorem mem_callsOf {i : ι} {past : List (ι × Served Reply σ)} {e : Served Reply σ} :
    e ∈ callsOf i past ↔ (i, e) ∈ past := by
  simp [callsOf]

theorem callsOf_cons_self (i : ι) (past : List (ι × Served Reply σ)) (e : Served Reply σ) :
    callsOf i ((i, e) :: past) = callsOf i past ++ [e] := by
  simp [callsOf]

theorem callsOf_cons_ne {i j : ι} (h : i ≠ j) (past : List (ι × Served Reply σ)) (e : Served Reply σ) :
    callsOf j ((i, e) :: past) = callsOf j past := by
  simp [callsOf, h]

/-- What was asked and answered. -/
def Served.said (e : Served Reply σ) : Sigma Reply := ⟨e.call, e.reply⟩

namespace System

/-- A run, with the calls of all threads so far, the latest first. -/
inductive Traced (sys : System ι Reply σ α) (origin : Config ι Reply σ α) :
    List (ι × Served Reply σ) → Config ι Reply σ α → Prop where
  | nil : Traced sys origin [] origin
  | start {past : List (ι × Served Reply σ)} {cfg : Config ι Reply σ α} (i : ι)
      (earlier : Traced sys origin past cfg) (h : cfg.thread i = none) :
      Traced sys origin past (cfg.run i (sys.program i))
  | call {past : List (ι × Served Reply σ)} {cfg : Config ι Reply σ α} (i : ι) {c : C}
      {next : Reply c → Program Reply α} {r : Reply c} {s : σ} (earlier : Traced sys origin past cfg)
      (h : cfg.thread i = some (.call c next)) (served : sys.serves c cfg.state r s) :
      Traced sys origin ((i, ⟨c, cfg.state, r, s⟩) :: past)
        (Config.run { cfg with state := s } i (next r))
  | environment {past : List (ι × Served Reply σ)} {cfg : Config ι Reply σ α} {s : σ}
      (earlier : Traced sys origin past cfg) (h : sys.environment cfg.state s) :
      Traced sys origin past { cfg with state := s }

variable {sys : System ι Reply σ α} {origin cfg cfg' : Config ι Reply σ α}
  {past later : List (ι × Served Reply σ)}

/-- What the system may do can be written down. -/
theorem Reaches.traced {allowed : Config ι Reply σ α → Label ι C → Prop}
    (h : sys.Reaches allowed origin cfg) : ∃ past, Traced sys origin past cfg := by
  induction h with
  | refl => exact ⟨[], .nil⟩
  | tail _ hlast ih =>
    obtain ⟨past, hpast⟩ := ih
    obtain ⟨l, _, hstep⟩ := hlast
    cases hstep with
    | start i hi => exact ⟨past, .start i hpast hi⟩
    | call i hi served => exact ⟨_, .call i hpast hi served⟩
    | environment henv => exact ⟨past, .environment hpast henv⟩

/-- An invariant of the log and the configuration, from which something follows about every call and
the log before it. -/
theorem Traced.events {I : List (ι × Served Reply σ) → Config ι Reply σ α → Prop}
    {P : List (ι × Served Reply σ) → ι × Served Reply σ → Prop} (h : Traced sys origin past cfg)
    (horigin : I [] origin)
    (hstart : ∀ past cfg i, I past cfg → cfg.thread i = none → I past (cfg.run i (sys.program i)))
    (hcall : ∀ past cfg i c next r s, I past cfg → cfg.thread i = some (.call c next) →
      sys.serves c cfg.state r s → P past (i, ⟨c, cfg.state, r, s⟩) ∧
        I ((i, ⟨c, cfg.state, r, s⟩) :: past) (Config.run { cfg with state := s } i (next r)))
    (henv : ∀ past cfg s, I past cfg → sys.environment cfg.state s → I past { cfg with state := s }) :
    I past cfg ∧ ∀ e earlier, e :: earlier <:+ past → P earlier e := by
  induction h with
  | nil => exact ⟨horigin, fun e earlier hsuffix => by simp at hsuffix⟩
  | start i _ hi ih => exact ⟨hstart _ _ i ih.1 hi, ih.2⟩
  | call i _ hi served ih =>
    obtain ⟨hP, hI⟩ := hcall _ _ i _ _ _ _ ih.1 hi served
    refine ⟨hI, fun e earlier hsuffix => ?_⟩
    rcases List.suffix_cons_iff.mp hsuffix with heq | hsuffix
    · cases heq
      exact hP
    · exact ih.2 e earlier hsuffix
  | environment _ hs ih => exact ⟨henv _ _ _ ih.1 hs, ih.2⟩

theorem Traced.served (h : Traced sys origin past cfg) :
    ∀ e ∈ past, sys.serves e.2.call e.2.before e.2.reply e.2.after := by
  induction h with
  | nil => exact fun e he => by cases he
  | start i _ hi ih => exact ih
  | call i _ hi served ih => exact List.forall_mem_cons.mpr ⟨served, ih⟩
  | environment _ hs ih => exact ih

/-- A run whose calls all meet a condition is one of a server that serves no others. -/
theorem Traced.restrict {P : Served Reply σ → Prop} (h : Traced sys origin past cfg) (hP : ∀ e ∈ past, P e.2) :
    Traced { sys with serves := fun c s r s' => sys.serves c s r s' ∧ P ⟨c, s, r, s'⟩ } origin past cfg := by
  induction h with
  | nil => exact .nil
  | start i _ hi ih => exact .start i (ih hP) hi
  | call i _ hi served ih =>
    obtain ⟨hcall, hearlier⟩ := List.forall_mem_cons.mp hP
    exact .call i (ih hearlier) hi ⟨served, hcall⟩
  | environment _ hs ih => exact .environment (ih hP) hs

/-- What the calls that threads may make preserve, and everybody else, holds all the time. -/
theorem Traced.preserves {I : σ → Prop} {W : C → Prop} {s : σ} (hW : ∀ i, (sys.program i).Within W) (hs : I s)
    (hcall : ∀ c s r s', W c → I s → sys.serves c s r s' → I s') (henv : ∀ s s', I s → sys.environment s s' → I s')
    (h : Traced sys (.initial s) past cfg) :
    I cfg.state ∧ ∀ e ∈ past, W e.2.call ∧ I e.2.before ∧ I e.2.after := by
  have hrun {cfg : Config ι Reply σ α} {i : ι} {q : Program Reply α} (hq : q.Within W)
      (hcfg : ∀ j p, cfg.thread j = some p → p.Within W) :
      ∀ j p, (cfg.run i q).thread j = some p → p.Within W := by
    intro j p hp
    by_cases hj : j = i
    · subst hj
      rw [Config.run_thread_self] at hp
      cases hp
      exact hq
    · rw [Config.run_thread_of_ne hj] at hp
      exact hcfg j p hp
  have hall := h.events
    (I := fun _ cfg => I cfg.state ∧ ∀ j p, cfg.thread j = some p → p.Within W)
    (P := fun _ e => W e.2.call ∧ I e.2.before ∧ I e.2.after) ⟨hs, fun j p hp => by cases hp⟩ ?_ ?_ ?_
  · refine ⟨hall.1.1, fun e he => ?_⟩
    obtain ⟨later, earlier, rfl⟩ := List.append_of_mem he
    exact hall.2 e earlier (List.suffix_append later _)
  · exact fun past cfg i hI _ => ⟨hI.1, hrun (hW i) hI.2⟩
  · intro past cfg i c next r t hI hi served
    obtain ⟨hc, hnext⟩ := hI.2 i _ hi
    have ht := hcall c cfg.state r t hc hI.1 served
    have hthreads : ∀ j p, ({ cfg with state := t } : Config ι Reply σ α).thread j = some p → p.Within W := hI.2
    exact ⟨⟨hc, hI.1, ht⟩, ht, hrun (hnext r) hthreads⟩
  · exact fun past cfg t hI ht => ⟨henv _ _ hI.1 ht, hI.2⟩

/-- What a thread has asked so far and what it has left make a dialogue of its program. -/
def Spoken (sys : System ι Reply σ α) (past : List (ι × Served Reply σ)) (i : ι) :
    Option (Program Reply α) → Prop
  | none => callsOf i past = []
  | some q => ∀ said a, q.Dialogue said a →
      (sys.program i).Dialogue ((callsOf i past).map Served.said ++ said) a

theorem Traced.spoken {s : σ} (h : Traced sys (.initial s) past cfg) (i : ι) :
    sys.Spoken past i (cfg.thread i) := by
  induction h with
  | nil => rfl
  | @start past cfg j _ hj ih =>
    by_cases hi : i = j
    · subst hi
      rw [hj] at ih
      rw [Config.run_thread_self]
      intro said a hsaid
      rw [show callsOf i past = [] from ih]
      exact hsaid
    · rw [Config.run_thread_of_ne hi]
      exact ih
  | @call past cfg j c next r t _ hj served ih =>
    by_cases hi : i = j
    · subst hi
      rw [hj] at ih
      rw [Config.run_thread_self]
      intro said a hsaid
      rw [callsOf_cons_self, List.map_append, List.append_assoc]
      exact ih (⟨c, r⟩ :: said) a (.call hsaid)
    · rw [Config.run_thread_of_ne hi]
      unfold Spoken
      rw [callsOf_cons_ne (Ne.symm hi)]
      exact ih
  | environment _ hs ih => exact ih

/-- A thread that is done has had a dialogue of its program, and has made no other calls. -/
theorem Traced.dialogue {s : σ} {i : ι} {a : α} (h : Traced sys (.initial s) past cfg)
    (hi : cfg.finished i a) : (sys.program i).Dialogue ((callsOf i past).map Served.said) a := by
  have hspoken := h.spoken i
  rw [hi] at hspoken
  simpa using hspoken [] a (.done a)

/-- Some run leads to a configuration, and all its calls meet a condition. -/
def Visits (sys : System ι Reply σ α) (P : ι × Served Reply σ → Prop)
    (origin cfg : Config ι Reply σ α) : Prop :=
  ∃ past, sys.Traced origin past cfg ∧ ∀ e ∈ past, P e

section visits
variable {P : ι × Served Reply σ → Prop}

variable {s t : σ} {thread : ι → Option (Program Reply α)} {i : ι}

theorem Visits.start (h : sys.Visits P origin ⟨s, thread⟩) (hi : thread i = none) :
    sys.Visits P origin ⟨s, Function.update thread i (some (sys.program i))⟩ := by
  obtain ⟨past, htraced, hP⟩ := h
  exact ⟨past, .start i htraced hi, hP⟩

/-- A thread that has a call to make, and so has moved before. -/
theorem Visits.call {c : C} {next : Reply c → Program Reply α} {r : Reply c}
    (h : sys.Visits P origin ⟨s, Function.update thread i (some (.call c next))⟩)
    (served : sys.serves c s r t) (hcall : P (i, ⟨c, s, r, t⟩)) :
    sys.Visits P origin ⟨t, Function.update thread i (some (next r))⟩ := by
  obtain ⟨past, htraced, hP⟩ := h
  have htraced' := Traced.call i htraced (Function.update_self i _ _) served
  rw [Config.run, Function.update_idem] at htraced'
  exact ⟨_, htraced', List.forall_mem_cons.mpr ⟨hcall, hP⟩⟩

theorem Visits.environment (h : sys.Visits P origin ⟨s, thread⟩) (henv : sys.environment s t) :
    sys.Visits P origin ⟨t, thread⟩ := by
  obtain ⟨past, htraced, hP⟩ := h
  exact ⟨past, .environment htraced henv, hP⟩

end visits

section chronicle
variable {serve : (c : C) → σ → Reply c × σ}

/-- A turn, with its call written down. -/
def noted (sys : System ι Reply σ α) (serve : (c : C) → σ → Reply c × σ)
    (run : List (ι × Served Reply σ) × Config ι Reply σ α) (i : ι) :
    List (ι × Served Reply σ) × Config ι Reply σ α :=
  (match run.2.thread i with
    | some (.call c _) => (i, ⟨c, run.2.state, (serve c run.2.state).1, (serve c run.2.state).2⟩) :: run.1
    | some (.done _) | none => run.1, sys.turn serve run.2 i)

/-- The turns of a schedule, with all calls written down. -/
def chronicle (sys : System ι Reply σ α) (serve : (c : C) → σ → Reply c × σ)
    (run : List (ι × Served Reply σ) × Config ι Reply σ α) (turns : List ι) :
    List (ι × Served Reply σ) × Config ι Reply σ α :=
  turns.foldl (sys.noted serve) run

private theorem traced_noted (h : ∀ c s, sys.serves c s (serve c s).1 (serve c s).2) (hrun : Traced sys origin past cfg)
    (i : ι) : Traced sys origin (sys.noted serve (past, cfg) i).1 (sys.noted serve (past, cfg) i).2 := by
  unfold noted
  rcases hi : cfg.thread i with _ | _ | ⟨c, next⟩
  · simp only [turn_start hi]
    exact .start i hrun hi
  · simp only [turn_done hi]
    exact hrun
  · simp only [turn_call hi]
    exact .call i hrun hi (h c cfg.state)

theorem traced_chronicle (h : ∀ c s, sys.serves c s (serve c s).1 (serve c s).2) (turns : List ι)
    (hrun : Traced sys origin past cfg) :
    Traced sys origin (sys.chronicle serve (past, cfg) turns).1 (sys.chronicle serve (past, cfg) turns).2 := by
  induction turns generalizing past cfg with
  | nil => exact hrun
  | cons i turns ih => exact ih (traced_noted h hrun i)

end chronicle

/-- The threads of a list taking their turns one after the other, each with the choices of its
turn. -/
def timetable (sys : System ι Reply σ α) (serve : μ → (c : C) → σ → Reply c × σ)
    (cfg : Config ι Reply σ α) (turns : List (ι × μ)) : Config ι Reply σ α :=
  turns.foldl (fun cfg turn => sys.turn (serve turn.2) cfg turn.1) cfg

variable {serve : μ → (c : C) → σ → Reply c × σ}

theorem timetable_concat (turns : List (ι × μ)) (i : ι) (m : μ) :
    sys.timetable serve cfg (turns ++ [(i, m)]) =
      sys.turn (serve m) (sys.timetable serve cfg turns) i := by
  simp only [timetable, List.foldl_append, List.foldl_cons, List.foldl_nil]

private theorem traced_turn {m : μ} (h : ∀ c s, sys.serves c s (serve m c s).1 (serve m c s).2) (i : ι)
    (hrun : Traced sys origin past cfg) :
    ∃ past', Traced sys origin past' (sys.turn (serve m) cfg i) := by
  unfold turn
  split
  · next hi => exact ⟨_, .start i hrun hi⟩
  · exact ⟨_, hrun⟩
  · next c next hi => exact ⟨_, .call i hrun hi (h c cfg.state)⟩

theorem traced_timetable (h : ∀ m c s, sys.serves c s (serve m c s).1 (serve m c s).2)
    (turns : List (ι × μ)) (hrun : Traced sys origin past cfg) :
    ∃ past', Traced sys origin past' (sys.timetable serve cfg turns) := by
  induction turns generalizing cfg past with
  | nil => exact ⟨past, hrun⟩
  | cons turn rest ih =>
    obtain ⟨past', hturn⟩ := traced_turn (h turn.2) turn.1 hrun
    exact ih hturn

/-- Where the choices of a turn account for all that the server may do, and nobody else touches the
state, every run is a timetable. -/
theorem Traced.exists_timetable [Nonempty μ]
    (hserve : ∀ c s r s', sys.serves c s r s' → ∃ m, serve m c s = (r, s'))
    (henv : ∀ s s', ¬ sys.environment s s') (h : Traced sys origin past cfg) :
    ∃ turns, sys.timetable serve origin turns = cfg := by
  induction h with
  | nil => exact ⟨[], rfl⟩
  | start i _ hi ih =>
    obtain ⟨turns, rfl⟩ := ih
    exact ⟨turns ++ [(i, Classical.arbitrary μ)], by rw [timetable_concat, turn_start hi]⟩
  | call i _ hi served ih =>
    obtain ⟨turns, rfl⟩ := ih
    obtain ⟨m, hm⟩ := hserve _ _ _ _ served
    exact ⟨turns ++ [(i, m)], by rw [timetable_concat, turn_call hi, hm]⟩
  | environment _ hs => exact absurd hs (henv _ _)

end System
end WayPoint.Foundations
