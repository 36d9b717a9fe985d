import WayPoint.Foundations.Turns

/-! Threads that stop together: each raises a flag of the shared state when it fails, and stops when it
finds the flag raised. What a program may do next depends on what it was told so far. -/
namespace WayPoint.Foundations
variable {C ι : Type} {Reply : C → Type} {σ α β ε : Type}

namespace Program
variable {possible : Sigma Reply → Prop} {P P' : List (Sigma Reply) → Sigma Reply → Prop}
  {Q Q' : List (Sigma Reply) → α → Prop} {R : List (Sigma Reply) → β → Prop} {past : List (Sigma Reply)}

/-- With these calls behind it, every further call of a program is in `P` and its end is in `Q`, as long as
the replies are possible. -/
def Conforms (possible : Sigma Reply → Prop) (P : List (Sigma Reply) → Sigma Reply → Prop)
    (Q : List (Sigma Reply) → α → Prop) : List (Sigma Reply) → Program Reply α → Prop
  | past, .done a => Q past a
  | past, .call c next => ∀ r, possible ⟨c, r⟩ →
    P past ⟨c, r⟩ ∧ Conforms possible P Q (past ++ [⟨c, r⟩]) (next r)

theorem conforms_bind {p : Program Reply α} {f : α → Program Reply β} (hp : p.Conforms possible P Q past)
    (hf : ∀ past a, Q past a → (f a).Conforms possible P R past) : (p >>= f).Conforms possible P R past := by
  induction p generalizing past with
  | done a => exact hf past a hp
  | call c next ih =>
    intro r hr
    exact ⟨(hp r hr).1, ih r (hp r hr).2⟩

theorem Conforms.mono {p : Program Reply α} (hp : p.Conforms possible P Q past)
    (hP : ∀ past e, P past e → P' past e) (hQ : ∀ past a, Q past a → Q' past a) :
    p.Conforms possible P' Q' past := by
  induction p generalizing past with
  | done a => exact hQ past a hp
  | call c next ih =>
    intro r hr
    exact ⟨hP past _ (hp r hr).1, ih r (hp r hr).2⟩

theorem conforms_except_bind {ε : Type} {x : ExceptT ε (Program Reply) α} {f : α → ExceptT ε (Program Reply) β}
    {Q : List (Sigma Reply) → Except ε α → Prop} {R : List (Sigma Reply) → Except ε β → Prop}
    (hx : x.run.Conforms possible P Q past) (hok : ∀ past a, Q past (.ok a) → (f a).run.Conforms possible P R past)
    (herror : ∀ past e, Q past (.error e) → R past (.error e)) : (x >>= f).run.Conforms possible P R past := by
  change (x.run >>= ExceptT.bindCont f).Conforms possible P R past
  refine conforms_bind hx fun past r hr => ?_
  cases r with
  | ok a => exact hok past a hr
  | error e => exact herror past e hr

theorem within_of_forall {W : C → Prop} (hW : ∀ c, W c) (p : Program Reply α) : p.Within W := by
  induction p with
  | done a => exact True.intro
  | call c next ih => exact ⟨hW c, ih⟩

theorem Within.conforms {W : C → Prop} {p : Program Reply α} (hp : p.Within W) :
    p.Conforms possible (fun _ e => W e.1) (fun _ _ => True) past := by
  induction p generalizing past with
  | done a => exact True.intro
  | call c next ih => exact fun r _ => ⟨hp.1, ih r (hp.2 r)⟩

end Program

namespace System
variable [DecidableEq ι] {sys : System ι Reply σ α} {origin cfg : Config ι Reply σ α}
  {past : List (ι × Served Reply σ)} {s : σ}

/-- What the calls of a thread so far have told it. -/
def told (i : ι) (past : List (ι × Served Reply σ)) : List (Sigma Reply) := (callsOf i past).map Served.said

theorem told_cons_self (i : ι) (e : Served Reply σ) : told i ((i, e) :: past) = told i past ++ [e.said] := by
  rw [told, callsOf_cons_self, List.map_append]
  rfl

theorem told_cons_ne {i j : ι} (h : j ≠ i) (e : Served Reply σ) : told i ((j, e) :: past) = told i past := by
  rw [told, callsOf_cons_ne h]
  rfl

theorem told_grows {earlier : List (ι × Served Reply σ)} (h : earlier <:+ past) (i : ι) :
    told i earlier <+: told i past := by
  obtain ⟨later, rfl⟩ := h
  exact ⟨told i later, by simp [told, callsOf]⟩

theorem mem_told {i : ι} {c : C} {r : Reply c} :
    ⟨c, r⟩ ∈ told i past ↔ ∃ s s', (i, ⟨c, s, r, s'⟩) ∈ past := by
  simp only [told, List.mem_map, mem_callsOf]
  constructor
  · intro h
    obtain ⟨⟨c', s, r', s'⟩, he, hsaid⟩ := h
    cases hsaid
    exact ⟨s, s', he⟩
  · intro h
    obtain ⟨s, s', he⟩ := h
    exact ⟨_, he, rfl⟩

/-- A thread keeps to what its program conforms to. -/
theorem Traced.conforms {possible : Sigma Reply → Prop} {i : ι} {P : List (Sigma Reply) → Sigma Reply → Prop}
    {Q : List (Sigma Reply) → α → Prop} (hprogram : (sys.program i).Conforms possible P Q [])
    (hpossible : ∀ c s r s', sys.serves c s r s' → possible ⟨c, r⟩) (h : sys.Traced (.initial s) past cfg) :
    (∀ a, cfg.finished i a → Q (told i past) a) ∧
      ∀ e earlier, (i, e) :: earlier <:+ past → P (told i earlier) e.said := by
  have hall := h.events
    (I := fun past cfg => (cfg.thread i = none → told i past = []) ∧
      ∀ q, cfg.thread i = some q → q.Conforms possible P Q (told i past))
    (P := fun earlier e => e.1 = i → P (told i earlier) e.2.said) ?_ ?_ ?_ ?_
  · exact ⟨fun a hi => hall.1.2 _ hi, fun e earlier hsuffix => hall.2 (i, e) earlier hsuffix rfl⟩
  · exact ⟨fun _ => rfl, fun q hq => by cases hq⟩
  · intro past cfg j hI hj
    by_cases hij : i = j
    · subst hij
      rw [Config.run_thread_self, hI.1 hj]
      refine ⟨fun hnone => absurd hnone (Option.some_ne_none _), fun q hq => ?_⟩
      cases hq
      exact hprogram
    · rw [Config.run_thread_of_ne hij]
      exact hI
  · intro past cfg j c next r t hI hj served
    by_cases hij : i = j
    · subst hij
      have hcall := hI.2 _ hj r (hpossible _ _ _ _ served)
      rw [Config.run_thread_self, told_cons_self]
      refine ⟨fun _ => hcall.1, fun hnone => absurd hnone (Option.some_ne_none _), fun q hq => ?_⟩
      cases hq
      exact hcall.2
    · rw [Config.run_thread_of_ne hij, told_cons_ne (Ne.symm hij)]
      exact ⟨fun heq => absurd heq.symm hij, hI⟩
  · exact fun past cfg s hI _ => hI

/-- The same where only the replies that were given are known to be possible. -/
theorem Traced.conforms_of_replies {possible : Sigma Reply → Prop} {i : ι}
    {P : List (Sigma Reply) → Sigma Reply → Prop} {Q : List (Sigma Reply) → α → Prop}
    (hprogram : (sys.program i).Conforms possible P Q []) (h : sys.Traced (.initial s) past cfg)
    (hpossible : ∀ e ∈ past, possible e.2.said) :
    (∀ a, cfg.finished i a → Q (told i past) a) ∧
      ∀ e earlier, (i, e) :: earlier <:+ past → P (told i earlier) e.said := by
  have hrestricted := h.restrict (P := fun e => possible e.said) hpossible
  have hserves (c : C) (s : σ) (r : Reply c) (s' : σ) (hserve : sys.serves c s r s' ∧ possible ⟨c, r⟩) :
      possible ⟨c, r⟩ := hserve.2
  refine hrestricted.conforms ?_ hserves
  exact hprogram

section flag
variable {up : σ → Prop}

/-- A flag that is never taken back is up from the first call that found or left it up. -/
theorem Traced.stays (hcalls : ∀ c s r s', sys.serves c s r s' → up s → up s')
    (henv : ∀ s s', sys.environment s s' → up s → up s') (h : sys.Traced origin past cfg)
    {e : ι × Served Reply σ} (he : e ∈ past) (hup : up e.2.before ∨ up e.2.after) : up cfg.state := by
  induction h with
  | nil => cases he
  | start i _ hi ih => exact ih he
  | call i _ hi served ih =>
    rcases List.mem_cons.mp he with rfl | he
    · rcases hup with hup | hup
      · exact hcalls _ _ _ _ served hup
      · exact hup
    · exact hcalls _ _ _ _ served (ih he)
  | environment _ hs ih => exact henv _ _ hs (ih he)

/-- A flag that is up was raised by a call. -/
theorem Traced.raised (hs : ¬ up origin.state) (henv : ∀ s s', sys.environment s s' → up s' → up s)
    (h : sys.Traced origin past cfg) (hup : up cfg.state) :
    ∃ e earlier, e :: earlier <:+ past ∧ ¬ up e.2.before ∧ up e.2.after ∧
      ∃ cfg, sys.Traced origin earlier cfg ∧ ¬ up cfg.state := by
  induction h with
  | nil => exact absurd hup hs
  | start i _ hi ih => exact ih hup
  | @call past cfg i c next r s' earlier hi served ih =>
    by_cases hbefore : up cfg.state
    · obtain ⟨e, first, hsuffix, hrest⟩ := ih hbefore
      exact ⟨e, first, hsuffix.trans (List.suffix_cons _ _), hrest⟩
    · exact ⟨_, past, List.suffix_rfl, hbefore, hup, cfg, earlier, hbefore⟩
  | environment _ hs ih => exact ih (henv _ _ hs hup)

/-- What a thread does about the flag: it raises it for a cause or after it saw it up, and when it has
stopped it has raised it or seen it up. -/
def FailStop (possible raises sees : Sigma Reply → Prop) (Cause : List (Sigma Reply) → Prop)
    (Stopped : α → Prop) (p : Program Reply α) : Prop :=
  p.Conforms possible (fun past e => raises e → Cause past ∨ ∃ o ∈ past, sees o)
    (fun past a => Stopped a → ∃ e ∈ past, raises e ∨ sees e) []

/-- In a system of such threads the flag is up for the cause of one of them, and once one of them has
stopped it is up. -/
theorem Traced.failStop {possible raises sees : Sigma Reply → Prop} {Cause : ι → List (Sigma Reply) → Prop}
    {Stopped : ι → α → Prop} (hs : ¬ up s) (hstays : ∀ c s r s', sys.serves c s r s' → up s → up s')
    (henv : ∀ s s', sys.environment s s' → (up s' ↔ up s))
    (hpossible : ∀ c s r s', sys.serves c s r s' → possible ⟨c, r⟩)
    (hraises : ∀ c s r s', sys.serves c s r s' → ¬ up s → (raises ⟨c, r⟩ ↔ up s'))
    (hsees : ∀ c s r s', sys.serves c s r s' → sees ⟨c, r⟩ → up s)
    (hprogram : ∀ i, FailStop possible raises sees (Cause i) (Stopped i) (sys.program i))
    (h : sys.Traced (.initial s) past cfg) :
    (up cfg.state → ∃ i earlier, earlier <:+ past ∧ Cause i (told i earlier)) ∧
      ∀ i a, cfg.finished i a → Stopped i a → up cfg.state := by
  have hconforms (i : ι) := h.conforms (hprogram i) hpossible
  have hseen {past : List (ι × Served Reply σ)} {cfg : Config ι Reply σ α} {i : ι} {o : Sigma Reply}
      (h : sys.Traced (.initial s) past cfg) (ho : o ∈ told i past) (hsaw : sees o) : up cfg.state := by
    obtain ⟨t, t', he⟩ := mem_told.mp ho
    exact h.stays hstays (fun s s' hss => (henv s s' hss).mpr) he (Or.inl (hsees _ _ _ _ (h.served _ he) hsaw))
  constructor
  · intro hup
    obtain ⟨e, earlier, hsuffix, hbefore, hafter, first, hfirst, hnot⟩ :=
      h.raised hs (fun s s' hss => (henv s s' hss).mp) hup
    have hserved := h.served e (hsuffix.subset List.mem_cons_self)
    have hraise := (hraises _ _ _ _ hserved hbefore).mpr hafter
    rcases (hconforms e.1).2 e.2 earlier hsuffix hraise with hcause | ⟨o, ho, hsaw⟩
    · exact ⟨e.1, earlier, (List.suffix_cons e earlier).trans hsuffix, hcause⟩
    · exact absurd (hseen hfirst ho hsaw) hnot
  · intro i a hi hstopped
    obtain ⟨o, ho, hflag⟩ := (hconforms i).1 a hi hstopped
    rcases hflag with hraise | hsaw
    · obtain ⟨t, t', he⟩ := mem_told.mp ho
      have hserved := h.served _ he
      refine h.stays hstays (fun s s' hss => (henv s s' hss).mpr) he ?_
      by_cases hbefore : up t
      · exact Or.inl hbefore
      · exact Or.inr ((hraises _ _ _ _ hserved hbefore).mp hraise)
    · exact hseen h ho hsaw

end flag
end System
end WayPoint.Foundations
