import WayPoint.Foundations.Turns

/-! Calls that take their time: they begin and finish, and what they do to the state happens in
between, beside that of the others that are running. Where none begins while another is running, it is
as if each of them had taken place at once. -/
namespace WayPoint.Foundations
variable {C ι : Type} {Reply : C → Type} {σ α : Type}

/-- The two ends of a call. -/
inductive Half (C : Type) where
  | begin (c : C)
  | finish (c : C)

abbrev Half.Answer (Reply : C → Type) : Half C → Type
  | .begin _ => Unit
  | .finish c => Reply c

/-- A program that begins and finishes each of its calls. -/
def Program.drawnOut : Program Reply α → Program (Half.Answer Reply) α
  | .done a => .done a
  | .call c next => .call (.begin c) fun _ => .call (.finish c) fun r => (next r).drawnOut

/-- The calls among their ends. -/
def answered? : Sigma (Half.Answer Reply) → Option (Sigma Reply)
  | ⟨.begin _, _⟩ => none
  | ⟨.finish c, r⟩ => some ⟨c, r⟩

@[simp] theorem answered?_begin (c : C) (r : Unit) : answered? (⟨.begin c, r⟩ : Sigma (Half.Answer Reply)) = none := rfl

@[simp] theorem answered?_finish (c : C) (r : Reply c) : answered? ⟨.finish c, r⟩ = some ⟨c, r⟩ := rfl

/-- A dialogue is one of the program itself, when what is said as a call begins is left out. -/
theorem Program.Dialogue.answered {p : Program Reply α} {said : List (Sigma (Half.Answer Reply))} {a : α}
    (h : p.drawnOut.Dialogue said a) : p.Dialogue (said.filterMap answered?) a := by
  induction p generalizing said with
  | done b =>
    obtain ⟨rfl, rfl⟩ := Program.dialogue_done_iff.mp h
    exact .done _
  | call c next ih =>
    obtain ⟨_, afterBegin, rfl, hfinish⟩ := Program.dialogue_call_iff.mp h
    obtain ⟨r, rest, rfl, hrest⟩ := Program.dialogue_call_iff.mp hfinish
    exact .call (ih r hrest)

/-- What carries calls out: which of them concern it, what their ends do, and what may happen while
some are running. -/
structure Engine (Reply : C → Type) (σ : Type) where
  concerns : C → Bool
  begins : C → σ → σ → Prop
  works : List C → σ → σ → Prop
  finishes : (c : C) → σ → Reply c → σ → Prop

/-- The state, and the calls that are running. -/
structure Busy (C σ : Type) where
  state : σ
  running : List C

namespace Engine
variable (engine : Engine Reply σ)

def serves : Server (Half.Answer Reply) (Busy C σ)
  | .begin c, b, _, b' =>
    if engine.concerns c then engine.begins c b.state b'.state ∧ b'.running = c :: b.running else b' = b
  | .finish c, b, r, b' =>
    if engine.concerns c then engine.finishes c b.state r b'.state ∧
      ∃ before after, b.running = before ++ c :: after ∧ b'.running = before ++ after
    else b' = b

/-- What happens while nothing but `running` is. -/
abbrev During (running : List C) : σ → σ → Prop := Relation.ReflTransGen (engine.works running)

/-- A whole call with no other beside it, and what happens before it. -/
def atOnce : Server Reply σ := fun c s r s' =>
  if engine.concerns c then ∃ t u v, engine.During [] s t ∧ engine.begins c t u ∧ engine.During [c] u v ∧
    engine.finishes c v r s'
  else s' = s

/-- The call does not begin while another is running. -/
def Alone (e : Served (Half.Answer Reply) (Busy C σ)) : Prop :=
  ∀ c, e.call = .begin c → engine.concerns c → e.before.running = []

end Engine

/-- Where a thread of both systems is, and the call that it is in the middle of. -/
inductive Level : Option (Program (Half.Answer Reply) α) → Option (Program Reply α) → Option C → Prop where
  | absent : Level none none none
  | between (p : Program Reply α) : Level (some p.drawnOut) (some p) none
  | midway (c : C) (next : Reply c → Program Reply α) :
      Level (some (.call (.finish c) fun r => (next r).drawnOut)) (some (.call c next)) (some c)

section level
variable {x : Option (Program Reply α)} {current : Option C} {c : C}

theorem Level.of_none (h : Level none x current) : x = none ∧ current = none := by
  cases h
  exact ⟨rfl, rfl⟩

theorem Level.of_done {a : α} (h : Level (some (.done a)) x current) : x = some (.done a) ∧ current = none := by
  generalize hq : some (Program.done a) = q at h
  cases h with
  | absent => cases hq
  | between p =>
    cases p with
    | done a' =>
      cases hq
      exact ⟨rfl, rfl⟩
    | call c next => cases Option.some.inj hq
  | midway c next => cases Option.some.inj hq

theorem Level.of_begin {next : Half.Answer Reply (.begin c) → Program (Half.Answer Reply) α}
    (h : Level (some (.call (.begin c) next)) x current) : current = none ∧
      ∃ next', x = some (.call c next') ∧ next = fun _ => .call (.finish c) fun r => (next' r).drawnOut := by
  generalize hq : some (Program.call (Half.begin c) next) = q at h
  cases h with
  | absent => cases hq
  | between p =>
    cases p with
    | done a => cases Option.some.inj hq
    | call d next' =>
      cases hq
      exact ⟨rfl, next', rfl, rfl⟩
  | midway d next' => cases Option.some.inj hq

theorem Level.of_finish {next : Half.Answer Reply (.finish c) → Program (Half.Answer Reply) α}
    (h : Level (some (.call (.finish c) next)) x current) : current = some c ∧
      ∃ next', x = some (.call c next') ∧ next = fun r => (next' r).drawnOut := by
  generalize hq : some (Program.call (Half.finish c) next) = q at h
  cases h with
  | absent => cases hq
  | between p =>
    cases p with
    | done a => cases Option.some.inj hq
    | call d next' => cases Option.some.inj hq
  | midway d next' =>
    cases hq
    exact ⟨rfl, next', rfl, rfl⟩

theorem Level.update [DecidableEq ι] {thread : ι → Option (Program (Half.Answer Reply) α)}
    {thread' : ι → Option (Program Reply α)} {current : ι → Option C}
    (h : ∀ i, Level (thread i) (thread' i) (current i)) {i : ι} {d : Option C}
    {y : Option (Program (Half.Answer Reply) α)}
    (hi : Level y x d) (j : ι) :
    Level (Function.update thread i y j) (Function.update thread' i x j) (Function.update current i d j) := by
  by_cases hj : j = i
  · subst hj
    simp only [Function.update_self]
    exact hi
  · simp only [Function.update_of_ne hj]
    exact h j

end level

/-- At most one thread is in the middle of a call that concerns the engine. What happened since the last
such call has still to be told of the state on the right. -/
inductive Abreast (engine : Engine Reply σ) : Busy C σ → σ → (ι → Option C) → Prop where
  | free {s t : σ} {current : ι → Option C} (hfree : ∀ i c, current i = some c → engine.concerns c = false)
      (idle : engine.During [] s t) : Abreast engine ⟨t, []⟩ s current
  | taken {i : ι} {c : C} {s t u v : σ} {current : ι → Option C} (hi : current i = some c)
      (hc : engine.concerns c = true) (hfree : ∀ j d, j ≠ i → current j = some d → engine.concerns d = false)
      (idle : engine.During [] s t) (begins : engine.begins c t u) (works : engine.During [c] u v) :
      Abreast engine ⟨v, [c]⟩ s current

section abreast
variable {engine : Engine Reply σ} {b b' : Busy C σ} {s : σ} {current : ι → Option C} {c : C} {r : Reply c} {i : ι}

theorem Abreast.works (h : Abreast engine b s current)
    (hwork : engine.works b.running b.state b'.state ∧ b'.running = b.running) :
    Abreast engine b' s current := by
  obtain ⟨state', running'⟩ := b'
  obtain ⟨hwork, hrunning⟩ := hwork
  cases h with
  | free hfree idle =>
    obtain rfl : running' = [] := hrunning
    exact .free hfree (idle.tail hwork)
  | taken hi hc hfree idle begins works =>
    obtain rfl := (show running' = [_] from hrunning)
    exact .taken hi hc hfree idle begins (works.tail hwork)

variable [DecidableEq ι]

/-- A call begins that does not concern the engine, or no other is running. -/
theorem Abreast.begin (h : Abreast engine b s current) (hi : current i = none)
    (served : engine.serves (.begin c) b () b') (halone : engine.concerns c → b.running = []) :
    Abreast engine b' s (Function.update current i (some c)) := by
  have hothers (hfree : ∀ j d, current j = some d → engine.concerns d = false) :
      ∀ j d, j ≠ i → Function.update current i (some c) j = some d → engine.concerns d = false := by
    intro j d hj hd
    rw [Function.update_of_ne hj] at hd
    exact hfree j d hd
  obtain ⟨state', running'⟩ := b'
  by_cases hc : engine.concerns c = true
  · simp only [Engine.serves, hc, if_true] at served
    obtain ⟨hbegins, hrunning⟩ := served
    cases h with
    | free hfree idle =>
      obtain rfl : running' = [c] := hrunning
      exact .taken (Function.update_self i _ _) hc (hothers hfree) idle hbegins .refl
    | taken hj hd hfree idle begins works => cases halone hc
  · simp only [Engine.serves, hc, Bool.false_eq_true, if_false] at served
    have hc : engine.concerns c = false := Bool.eq_false_iff.mpr hc
    have hupdate {j : ι} {d : C} (hother : j ≠ i → current j = some d → engine.concerns d = false)
        (hd : Function.update current i (some c) j = some d) : engine.concerns d = false := by
      by_cases hj : j = i
      · subst hj
        rw [Function.update_self] at hd
        cases hd
        exact hc
      · rw [Function.update_of_ne hj] at hd
        exact hother hj hd
    cases served
    cases h with
    | free hfree idle => exact .free (fun j d hd => hupdate (fun _ => hfree j d) hd) idle
    | @taken k e _ _ _ _ _ hk he hfree idle begins works =>
      have hki : k ≠ i := by
        intro hki
        rw [hki, hi] at hk
        cases hk
      refine .taken (i := k) ?_ he (fun j d hj hd => hupdate (fun _ => hfree j d hj) hd) idle begins works
      rw [Function.update_of_ne hki]
      exact hk

/-- A call finishes, and with that it has taken place. -/
theorem Abreast.finish (h : Abreast engine b s current) (hi : current i = some c)
    (served : engine.serves (.finish c) b r b') : ∃ s', engine.atOnce c s r s' ∧
      Abreast engine b' s' (Function.update current i none) := by
  obtain ⟨state', running'⟩ := b'
  have hupdate {j : ι} {d : C} (hother : j ≠ i → current j = some d → engine.concerns d = false)
      (hd : Function.update current i none j = some d) : engine.concerns d = false := by
    by_cases hj : j = i
    · subst hj
      rw [Function.update_self] at hd
      cases hd
    · rw [Function.update_of_ne hj] at hd
      exact hother hj hd
  by_cases hc : engine.concerns c = true
  · simp only [Engine.serves, hc, if_true] at served
    obtain ⟨hfinishes, before, after, hsplit, hrunning⟩ := served
    cases h with
    | free hfree idle =>
      rw [hfree i c hi] at hc
      cases hc
    | @taken k e _ t u v _ hk he hfree idle begins works =>
      obtain rfl : i = k := by
        by_contra hne
        rw [hfree i c hne hi] at hc
        cases hc
      obtain rfl : c = e := Option.some.inj (hi.symm.trans hk)
      obtain ⟨rfl, rfl⟩ : before = [] ∧ after = [] := by
        have hlength := congrArg List.length hsplit
        simp only [List.length_append, List.length_cons, List.length_nil] at hlength
        exact ⟨List.length_eq_zero_iff.mp (by omega), List.length_eq_zero_iff.mp (by omega)⟩
      obtain rfl : running' = [] := hrunning
      refine ⟨state', ?_, .free (fun j d hd => hupdate (fun hj => hfree j d hj) hd) .refl⟩
      rw [Engine.atOnce, if_pos hc]
      exact ⟨t, u, v, idle, begins, works, hfinishes⟩
  · simp only [Engine.serves, hc, Bool.false_eq_true, if_false] at served
    cases served
    refine ⟨s, by rw [Engine.atOnce, if_neg hc], ?_⟩
    cases h with
    | free hfree idle => exact .free (fun j d hd => hupdate (fun _ => hfree j d) hd) idle
    | @taken k e _ _ _ _ _ hk he hfree idle begins works =>
      have hki : k ≠ i := by
        intro hki
        rw [hki, hi] at hk
        exact hc (Option.some.inj hk ▸ he)
      refine .taken (i := k) ?_ he (fun j d hj hd => hupdate (fun _ => hfree j d hj) hd) idle begins works
      rw [Function.update_of_ne hki]
      exact hk

end abreast

section simulation
variable {engine : Engine Reply σ} {program : ι → Program Reply α} {s : σ}
  {past : List (ι × Served (Half.Answer Reply) (Busy C σ))} {cfg : Config ι (Half.Answer Reply) (Busy C σ) α}

/-- A configuration with calls underway, and one where each of them takes no time. -/
structure Alongside (engine : Engine Reply σ) (cfg : Config ι (Half.Answer Reply) (Busy C σ) α)
    (cfg' : Config ι Reply σ α) (current : ι → Option C) : Prop where
  thread : ∀ i, Level (cfg.thread i) (cfg'.thread i) (current i)
  state : Abreast engine cfg.state cfg'.state current

/-- With all threads at rest, nothing is left to be told but what the engine has done since. -/
theorem Alongside.idle {cfg' : Config ι Reply σ α} {current : ι → Option C}
    (h : Alongside engine cfg cfg' current) (hdone : ∀ i p, cfg.thread i = some p → ∃ a, p = .done a) :
    engine.During [] cfg'.state cfg.state.state := by
  have hcurrent (i : ι) : current i = none := by
    have hlevel := h.thread i
    cases hi : cfg.thread i with
    | none =>
      rw [hi] at hlevel
      exact hlevel.of_none.2
    | some p =>
      obtain ⟨a, rfl⟩ := hdone i p hi
      rw [hi] at hlevel
      exact hlevel.of_done.2
  have hstate := h.state
  generalize cfg.state = b at hstate
  cases hstate with
  | free _ idle => exact idle
  | taken hi _ _ _ _ _ =>
    rw [hcurrent] at hi
    cases hi

section step
variable {cfg' : Config ι Reply σ α} {current : ι → Option C} {i : ι} {c : C} {b' : Busy C σ}

theorem Alongside.works (h : Alongside engine cfg cfg' current)
    (hwork : engine.works cfg.state.running cfg.state.state b'.state ∧ b'.running = cfg.state.running) :
    Alongside engine { cfg with state := b' } cfg' current :=
  ⟨h.thread, h.state.works hwork⟩

variable [DecidableEq ι]

theorem Alongside.start (h : Alongside engine cfg cfg' current) (hi : cfg.thread i = none) (p : Program Reply α) :
    cfg'.thread i = none ∧ Alongside engine (cfg.run i p.drawnOut) (cfg'.run i p) (Function.update current i none) := by
  have hlevel := h.thread i
  rw [hi] at hlevel
  obtain ⟨hi', hcurrent⟩ := hlevel.of_none
  refine ⟨hi', ⟨Level.update h.thread (.between p), ?_⟩⟩
  rw [← hcurrent, Function.update_eq_self]
  exact h.state

/-- Nothing has happened on the right when a call begins. -/
theorem Alongside.begin (h : Alongside engine cfg cfg' current)
    {next : Half.Answer Reply (.begin c) → Program (Half.Answer Reply) α}
    (hi : cfg.thread i = some (.call (.begin c) next)) (served : engine.serves (.begin c) cfg.state () b')
    (halone : engine.concerns c → cfg.state.running = []) :
    Alongside engine (Config.run { cfg with state := b' } i (next ())) cfg' (Function.update current i (some c)) := by
  have hlevel := h.thread i
  rw [hi] at hlevel
  obtain ⟨hcurrent, next', hi', rfl⟩ := hlevel.of_begin
  refine ⟨fun j => ?_, h.state.begin hcurrent served halone⟩
  have hthread := Level.update h.thread (i := i) (.midway c next') j
  rwa [← hi', Function.update_eq_self] at hthread

/-- The whole call takes place on the right when it finishes. -/
theorem Alongside.finish (h : Alongside engine cfg cfg' current)
    {next : Half.Answer Reply (.finish c) → Program (Half.Answer Reply) α} {r : Reply c}
    (hi : cfg.thread i = some (.call (.finish c) next)) (served : engine.serves (.finish c) cfg.state r b') :
    ∃ next' s', cfg'.thread i = some (.call c next') ∧ engine.atOnce c cfg'.state r s' ∧
      Alongside engine (Config.run { cfg with state := b' } i (next r))
        (Config.run { cfg' with state := s' } i (next' r)) (Function.update current i none) := by
  have hlevel := h.thread i
  rw [hi] at hlevel
  obtain ⟨hcurrent, next', hi', rfl⟩ := hlevel.of_finish
  obtain ⟨s', hserved, hstate⟩ := h.state.finish hcurrent served
  exact ⟨next', s', hi', hserved, Level.update h.thread (.between (next' r)), hstate⟩

end step

variable [DecidableEq ι]

end simulation
end WayPoint.Foundations
