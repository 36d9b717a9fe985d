import WayPoint.Foundations.FailStop

/-! A lock that guards a resource. While the lock is free the resource is in order; the thread that has
taken it may bring the resource out of order until it gives the lock back. -/
namespace WayPoint.Foundations.System
variable {C ι : Type} {Reply : C → Type} {σ α : Type} [DecidableEq ι] {sys : System ι Reply σ α}
  {cfg : Config ι Reply σ α} {past : List (ι × Served Reply σ)} {s : σ}

/-- What is said of a thread after some calls of all threads, in a state. -/
abbrev ThreadSpec (ι : Type) {C : Type} (Reply : C → Type) (σ α : Type) :=
  List (ι × Served Reply σ) → σ → ι → Program Reply α → Prop

/-- How threads and their environment treat the lock. -/
structure Discipline (sys : System ι Reply σ α) (locked : σ → Prop) (R : List (ι × Served Reply σ) → σ → Prop)
    (Inside Outside : ThreadSpec ι Reply σ α) : Prop where
  start : ∀ past s i, callsOf i past = [] → Outside past s i (sys.program i)
  /-- A thread outside takes the lock, with the resource in order, or leaves both alone. -/
  outside : ∀ {past s i c next r s'}, Outside past s i (.call c next) → sys.serves c s r s' →
    (locked s' ↔ locked s) ∧ (R past s → R ((i, ⟨c, s, r, s'⟩) :: past) s') ∧
        Outside ((i, ⟨c, s, r, s'⟩) :: past) s' i (next r) ∨
      ¬ locked s ∧ locked s' ∧ (R past s → Inside ((i, ⟨c, s, r, s'⟩) :: past) s' i (next r))
  /-- The thread inside keeps the lock, or gives it back with the resource in order. -/
  inside : ∀ {past s i c next r s'}, locked s → Inside past s i (.call c next) → sys.serves c s r s' →
    locked s' ∧ Inside ((i, ⟨c, s, r, s'⟩) :: past) s' i (next r) ∨
      ¬ locked s' ∧ R ((i, ⟨c, s, r, s'⟩) :: past) s' ∧ Outside ((i, ⟨c, s, r, s'⟩) :: past) s' i (next r)
  keepsOutside : ∀ {past s i c next r s' j q}, j ≠ i →
    Outside past s i (.call c next) ∨ Inside past s i (.call c next) → sys.serves c s r s' →
      Outside past s j q → Outside ((i, ⟨c, s, r, s'⟩) :: past) s' j q
  keepsInside : ∀ {past s i c next r s' j q}, j ≠ i → locked s → Outside past s i (.call c next) →
    sys.serves c s r s' → Inside past s j q → Inside ((i, ⟨c, s, r, s'⟩) :: past) s' j q
  environment : ∀ past {s s'}, sys.environment s s' → (locked s' ↔ locked s) ∧ (R past s → R past s') ∧
    (∀ j q, Outside past s j q → Outside past s' j q) ∧ ∀ j q, Inside past s j q → Inside past s' j q

variable {locked : σ → Prop} {R : List (ι × Served Reply σ) → σ → Prop} {Inside Outside : ThreadSpec ι Reply σ α}

/-- All threads are outside but the holder of the lock. -/
structure Guarded (locked : σ → Prop) (R : List (ι × Served Reply σ) → σ → Prop)
    (Inside Outside : ThreadSpec ι Reply σ α) (past : List (ι × Served Reply σ)) (cfg : Config ι Reply σ α)
    (holder : Option ι) : Prop where
  locked_iff : locked cfg.state ↔ holder.isSome
  unstarted : ∀ i, cfg.thread i = none → callsOf i past = [] ∧ holder ≠ some i
  resource : holder = none → R past cfg.state
  inside : ∀ i q, cfg.thread i = some q → holder = some i → Inside past cfg.state i q
  outside : ∀ i q, cfg.thread i = some q → holder ≠ some i → Outside past cfg.state i q

theorem Guarded.start {holder : Option ι} (hdiscipline : Discipline sys locked R Inside Outside)
    (h : Guarded locked R Inside Outside past cfg holder) {i : ι} (hi : cfg.thread i = none) :
    Guarded locked R Inside Outside past (cfg.run i (sys.program i)) holder where
  locked_iff := h.locked_iff
  unstarted j hj := by
    by_cases hij : j = i
    · subst hij
      rw [Config.run_thread_self] at hj
      cases hj
    · exact h.unstarted j (by rwa [Config.run_thread_of_ne hij] at hj)
  resource := h.resource
  inside j q hj hholder := by
    by_cases hij : j = i
    · subst hij
      exact absurd hholder (h.unstarted j hi).2
    · exact h.inside j q (by rwa [Config.run_thread_of_ne hij] at hj) hholder
  outside j q hj hholder := by
    by_cases hij : j = i
    · subst hij
      rw [Config.run_thread_self] at hj
      cases hj
      exact hdiscipline.start past cfg.state j (h.unstarted j hi).1
    · exact h.outside j q (by rwa [Config.run_thread_of_ne hij] at hj) hholder

theorem Guarded.environment {holder : Option ι} (hdiscipline : Discipline sys locked R Inside Outside)
    (h : Guarded locked R Inside Outside past cfg holder) {s : σ} (hs : sys.environment cfg.state s) :
    Guarded locked R Inside Outside past { cfg with state := s } holder := by
  obtain ⟨hlocked, hresource, houtside, hinside⟩ := hdiscipline.environment past hs
  exact ⟨hlocked.trans h.locked_iff, h.unstarted, fun hnone => hresource (h.resource hnone),
    fun i q hi hholder => hinside i q (h.inside i q hi hholder),
    fun i q hi hholder => houtside i q (h.outside i q hi hholder)⟩

/-- A call that leaves its thread where the new holder says, and all others where they were. -/
theorem Guarded.moved {holder holder' : Option ι} (h : Guarded locked R Inside Outside past cfg holder) {i : ι}
    {c : C} {next : Reply c → Program Reply α} {r : Reply c} {s : σ} (hi : cfg.thread i = some (.call c next))
    (hlocked : locked s ↔ holder'.isSome) (hresource : holder' = none → R ((i, ⟨c, cfg.state, r, s⟩) :: past) s)
    (hinside : holder' = some i → Inside ((i, ⟨c, cfg.state, r, s⟩) :: past) s i (next r))
    (houtside : holder' ≠ some i → Outside ((i, ⟨c, cfg.state, r, s⟩) :: past) s i (next r))
    (hsame : ∀ j, j ≠ i → (holder' = some j ↔ holder = some j))
    (hkeepsInside : ∀ j q, j ≠ i → holder = some j → Inside past cfg.state j q →
      Inside ((i, ⟨c, cfg.state, r, s⟩) :: past) s j q)
    (hkeepsOutside : ∀ j q, j ≠ i → Outside past cfg.state j q →
      Outside ((i, ⟨c, cfg.state, r, s⟩) :: past) s j q) :
    Guarded locked R Inside Outside ((i, ⟨c, cfg.state, r, s⟩) :: past) (Config.run { cfg with state := s } i (next r))
      holder' where
  locked_iff := hlocked
  unstarted j hj := by
    by_cases hij : j = i
    · subst hij
      rw [Config.run_thread_self] at hj
      cases hj
    · rw [Config.run_thread_of_ne hij] at hj
      obtain ⟨hcalls, hholder⟩ := h.unstarted j hj
      exact ⟨(callsOf_cons_ne (Ne.symm hij) past _).trans hcalls, fun heq => hholder ((hsame j hij).mp heq)⟩
  resource := hresource
  inside j q hj hholder := by
    by_cases hij : j = i
    · subst hij
      rw [Config.run_thread_self] at hj
      cases hj
      exact hinside hholder
    · rw [Config.run_thread_of_ne hij] at hj
      have hheld := (hsame j hij).mp hholder
      exact hkeepsInside j q hij hheld (h.inside j q hj hheld)
  outside j q hj hholder := by
    by_cases hij : j = i
    · subst hij
      rw [Config.run_thread_self] at hj
      cases hj
      exact houtside hholder
    · rw [Config.run_thread_of_ne hij] at hj
      exact hkeepsOutside j q hij (h.outside j q hj fun heq => hholder ((hsame j hij).mpr heq))

theorem Guarded.call {holder : Option ι} (hdiscipline : Discipline sys locked R Inside Outside)
    (h : Guarded locked R Inside Outside past cfg holder) {i : ι} {c : C} {next : Reply c → Program Reply α}
    {r : Reply c} {s : σ} (hi : cfg.thread i = some (.call c next)) (served : sys.serves c cfg.state r s) :
    ∃ holder', Guarded locked R Inside Outside ((i, ⟨c, cfg.state, r, s⟩) :: past)
      (Config.run { cfg with state := s } i (next r)) holder' := by
  by_cases hholder : holder = some i
  · have hlocked : locked cfg.state := h.locked_iff.mpr (by rw [hholder]; rfl)
    have hin := h.inside i _ hi hholder
    have hothers (j : ι) (q : Program Reply α) (hij : j ≠ i) (hj : Outside past cfg.state j q) :=
      hdiscipline.keepsOutside hij (Or.inr hin) served hj
    have hnobody (j : ι) (hij : j ≠ i) : holder ≠ some j := fun heq => hij (Option.some.inj (heq.symm.trans hholder))
    rcases hdiscipline.inside hlocked hin served with ⟨hstays, hin'⟩ | ⟨hfree, hresource, hout⟩
    · refine ⟨some i, h.moved hi (iff_of_true hstays rfl) (fun hnone => by cases hnone) (fun _ => hin')
        (fun hne => absurd rfl hne) (fun j hij => by rw [hholder]) (fun j q hij hheld => absurd hheld (hnobody j hij))
        hothers⟩
    · refine ⟨none, h.moved hi (iff_of_false hfree (by simp)) (fun _ => hresource) (fun hsome => by cases hsome)
        (fun _ => hout) (fun j hij => iff_of_false (by simp) (hnobody j hij))
        (fun j q hij hheld => absurd hheld (hnobody j hij)) hothers⟩
  · have hout := h.outside i _ hi hholder
    have hothers (j : ι) (q : Program Reply α) (hij : j ≠ i) (hj : Outside past cfg.state j q) :=
      hdiscipline.keepsOutside hij (Or.inl hout) served hj
    rcases hdiscipline.outside hout served with ⟨hlocked, hresource, hout'⟩ | ⟨hfree, htaken, hin⟩
    · refine ⟨holder, h.moved hi (hlocked.trans h.locked_iff) (fun hnone => hresource (h.resource hnone))
        (fun heq => absurd heq hholder) (fun _ => hout') (fun _ _ => Iff.rfl) (fun j q hij hheld hj => ?_) hothers⟩
      exact hdiscipline.keepsInside hij (h.locked_iff.mpr (by rw [hheld]; rfl)) hout served hj
    · have hnone : holder = none := by
        cases hheld : holder with
        | none => rfl
        | some j => exact absurd (h.locked_iff.mpr (by rw [hheld]; rfl)) hfree
      refine ⟨some i, h.moved hi (iff_of_true htaken rfl) (fun hsome => by cases hsome)
        (fun _ => hin (h.resource hnone)) (fun hne => absurd rfl hne) (fun j hij => ?_)
        (fun j q hij hheld => by rw [hnone] at hheld; cases hheld) hothers⟩
      rw [hnone]
      exact iff_of_false (fun heq => hij (Option.some.inj heq).symm) (by simp)

/-- Threads that keep to the discipline are inside one at a time, and find the resource in order. -/
theorem Traced.guarded (hdiscipline : Discipline sys locked R Inside Outside) (hfree : ¬ locked s) (hR : R [] s)
    (h : sys.Traced (.initial s) past cfg) :
    (∃ holder, Guarded locked R Inside Outside past cfg holder) ∧ ∀ i e earlier, (i, e) :: earlier <:+ past →
      ∃ next, Outside earlier e.before i (.call e.call next) ∨ Inside earlier e.before i (.call e.call next) := by
  have hall := h.events
    (I := fun past cfg => ∃ holder, Guarded locked R Inside Outside past cfg holder)
    (P := fun earlier e => ∃ next, Outside earlier e.2.before e.1 (.call e.2.call next) ∨
      Inside earlier e.2.before e.1 (.call e.2.call next)) ?_ ?_ ?_ ?_
  · exact ⟨hall.1, fun i e earlier => hall.2 (i, e) earlier⟩
  · refine ⟨none, iff_of_false hfree (by simp), fun i _ => ⟨rfl, by simp⟩, fun _ => hR, fun i q hi => ?_, fun i q hi => ?_⟩
    · cases hi
    · cases hi
  · rintro past cfg i ⟨holder, hguarded⟩ hi
    exact ⟨holder, hguarded.start hdiscipline hi⟩
  · rintro past cfg i c next r t ⟨holder, hguarded⟩ hi served
    refine ⟨⟨next, ?_⟩, hguarded.call hdiscipline hi served⟩
    by_cases hholder : holder = some i
    · exact Or.inr (hguarded.inside i _ hi hholder)
    · exact Or.inl (hguarded.outside i _ hi hholder)
  · rintro past cfg t ⟨holder, hguarded⟩ ht
    exact ⟨holder, hguarded.environment hdiscipline ht⟩

end WayPoint.Foundations.System
