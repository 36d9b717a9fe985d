import WayPoint.Foundations.Program

/-! Runs of one program between whose calls others act on the same state, with everything that
happened written down. -/
namespace WayPoint.Foundations
variable {C D : Type} {Reply : C → Type} {Reply' : D → Type} {σ α : Type}

/-- One atomic call, by the program itself or by somebody else. -/
inductive Event (Reply : C → Type) (Reply' : D → Type) (σ : Type) where
  | own (c : C) (before : σ) (r : Reply c) (after : σ)
  | other (d : D) (before : σ) (r : Reply' d) (after : σ)

def Event.after : Event Reply Reply' σ → σ
  | .own _ _ _ after => after
  | .other _ _ _ after => after

/-- Some of `p` has run, from `s` on: what happened, the latest event first, what is left of the
program and the state. -/
inductive Logged (serves : Server Reply σ) (others : Server Reply' σ) (s : σ) (p : Program Reply α) :
    List (Event Reply Reply' σ) → Program Reply α → σ → Prop where
  | nil : Logged serves others s p [] p s
  | own {past : List (Event Reply Reply' σ)} {c : C} {next : Reply c → Program Reply α} {t t' : σ}
      {r : Reply c} (earlier : Logged serves others s p past (.call c next) t)
      (served : serves c t r t') : Logged serves others s p (.own c t r t' :: past) (next r) t'
  | other {past : List (Event Reply Reply' σ)} {d : D} {q : Program Reply α} {t t' : σ}
      {r : Reply' d} (earlier : Logged serves others s p past q t) (served : others d t r t') :
      Logged serves others s p (.other d t r t' :: past) q t'

variable {serves : Server Reply σ} {others : Server Reply' σ} {s t : σ} {p q : Program Reply α}
  {past : List (Event Reply Reply' σ)}

/-- An invariant of the log, the program and the state, from which something follows about every
event and what came before it. -/
theorem Logged.events {I : List (Event Reply Reply' σ) → Program Reply α → σ → Prop}
    {P : List (Event Reply Reply' σ) → Event Reply Reply' σ → Prop}
    (h : Logged serves others s p past q t) (hs : I [] p s)
    (hown : ∀ past c next t r t', I past (.call c next) t → serves c t r t' →
      P past (.own c t r t') ∧ I (.own c t r t' :: past) (next r) t')
    (hother : ∀ past d q t r t', I past q t → others d t r t' →
      P past (.other d t r t') ∧ I (.other d t r t' :: past) q t') :
    I past q t ∧ ∀ e earlier, e :: earlier <:+ past → P earlier e := by
  induction h with
  | nil =>
    refine ⟨hs, ?_⟩
    intro e earlier hsuffix
    cases List.suffix_nil.mp hsuffix
  | own _ served ih =>
    obtain ⟨hP, hI⟩ := hown _ _ _ _ _ _ ih.1 served
    refine ⟨hI, ?_⟩
    intro e earlier hsuffix
    rcases List.suffix_cons_iff.mp hsuffix with heq | hsuffix
    · cases heq
      exact hP
    · exact ih.2 e earlier hsuffix
  | other _ served ih =>
    obtain ⟨hP, hI⟩ := hother _ _ _ _ _ _ ih.1 served
    refine ⟨hI, ?_⟩
    intro e earlier hsuffix
    rcases List.suffix_cons_iff.mp hsuffix with heq | hsuffix
    · cases heq
      exact hP
    · exact ih.2 e earlier hsuffix

/-- What every call preserves holds at the end, and what every call then guarantees of its reply
holds of all replies. -/
theorem Logged.replies {I : σ → Prop} {P : (c : C) → Reply c → Prop}
    (h : Logged serves others s p past q t) (hs : I s)
    (hserves : ∀ c s r s', I s → serves c s r s' → P c r ∧ I s')
    (hothers : ∀ d s r s', I s → others d s r s' → I s') :
    I t ∧ ∀ c s r s', .own c s r s' ∈ past → P c r := by
  induction h with
  | nil => exact ⟨hs, fun _ _ _ _ h => by cases h⟩
  | own _ served ih =>
    obtain ⟨hP, hI⟩ := hserves _ _ _ _ ih.1 served
    refine ⟨hI, fun c s r s' hmem => ?_⟩
    rcases List.mem_cons.mp hmem with heq | hmem
    · cases heq
      exact hP
    · exact ih.2 c s r s' hmem
  | other _ served ih =>
    refine ⟨hothers _ _ _ _ ih.1 served, fun c s r s' hmem => ?_⟩
    rcases List.mem_cons.mp hmem with heq | hmem
    · cases heq
    · exact ih.2 c s r s' hmem

namespace Program
variable {β : Type}

/-- The calls of a whole run with the replies they got, the first one first. -/
inductive Dialogue : Program Reply α → List (Sigma Reply) → α → Prop where
  | done (a : α) : Dialogue (.done a) [] a
  | call {c : C} {next : Reply c → Program Reply α} {r : Reply c} {said : List (Sigma Reply)} {a : α}
      (rest : Dialogue (next r) said a) : Dialogue (.call c next) (⟨c, r⟩ :: said) a

theorem dialogue_done_iff {a b : α} {said : List (Sigma Reply)} :
    Dialogue (.done a : Program Reply α) said b ↔ said = [] ∧ b = a := by
  constructor
  · intro h
    cases h
    exact ⟨rfl, rfl⟩
  · intro heq
    obtain ⟨rfl, rfl⟩ := heq
    exact .done b

theorem dialogue_call_iff {c : C} {next : Reply c → Program Reply α} {said : List (Sigma Reply)}
    {a : α} : Dialogue (.call c next) said a ↔
      ∃ r rest, said = ⟨c, r⟩ :: rest ∧ Dialogue (next r) rest a := by
  constructor
  · intro h
    cases h with
    | call rest => exact ⟨_, _, rfl, rest⟩
  · intro hdialogue
    obtain ⟨r, rest, rfl, h⟩ := hdialogue
    exact .call h

theorem dialogue_bind_iff {p : Program Reply α} {f : α → Program Reply β}
    {said : List (Sigma Reply)} {b : β} : Dialogue (p >>= f) said b ↔
      ∃ a first second, said = first ++ second ∧ Dialogue p first a ∧ Dialogue (f a) second b := by
  induction p generalizing said with
  | done a =>
    constructor
    · exact fun h => ⟨a, [], said, rfl, .done a, h⟩
    · intro hsplit
      obtain ⟨_, _, second, rfl, hp, hf⟩ := hsplit
      cases hp
      exact hf
  | call c next ih =>
    simp only [call_bind, dialogue_call_iff, ih]
    constructor
    · intro hsplit
      obtain ⟨r, _, rfl, a, first, second, rfl, hp, hf⟩ := hsplit
      exact ⟨a, ⟨c, r⟩ :: first, second, rfl, ⟨r, first, rfl, hp⟩, hf⟩
    · intro hsplit
      obtain ⟨a, _, second, rfl, ⟨r, first, rfl, hp⟩, hf⟩ := hsplit
      exact ⟨r, first ++ second, rfl, a, first, second, rfl, hp, hf⟩

/-- Whatever calls are answered with, there is a dialogue. -/
theorem exists_dialogue (answer : (c : C) → Reply c) (p : Program Reply α) :
    ∃ said a, p.Dialogue said a ∧ ∀ e ∈ said, e.2 = answer e.1 := by
  induction p with
  | done a => exact ⟨[], a, .done a, fun e he => by cases he⟩
  | call c next ih =>
    obtain ⟨said, a, h, hanswers⟩ := ih (answer c)
    exact ⟨⟨c, answer c⟩ :: said, a, .call h, List.forall_mem_cons.mpr ⟨rfl, hanswers⟩⟩

/-- Only calls the program can make are made. -/
theorem Dialogue.within {P : C → Prop} {p : Program Reply α} {said : List (Sigma Reply)} {a : α}
    (h : Dialogue p said a) (hp : p.Within P) : ∀ e ∈ said, P e.1 := by
  induction h with
  | done a => exact fun e he => by cases he
  | call rest ih => exact List.forall_mem_cons.mpr ⟨hp.1, ih (hp.2 _)⟩

end Program

def Event.said? : Event Reply Reply' σ → Option (Sigma Reply)
  | .own c _ r _ => some ⟨c, r⟩
  | .other _ _ _ _ => none

/-- The program's own calls in a log, the first one first. -/
def ownCalls (past : List (Event Reply Reply' σ)) : List (Sigma Reply) :=
  past.reverse.filterMap Event.said?

@[simp] theorem ownCalls_own (c : C) (s s' : σ) (r : Reply c) :
    ownCalls (.own c s r s' :: past) = ownCalls past ++ [⟨c, r⟩] := by
  simp [ownCalls, Event.said?]

@[simp] theorem ownCalls_other (d : D) (s s' : σ) (r : Reply' d) :
    ownCalls (.other d s r s' :: past) = ownCalls past := by
  simp [ownCalls, List.filterMap_append, Event.said?, List.filterMap_cons]

theorem mem_ownCalls {c : C} {r : Reply c} :
    ⟨c, r⟩ ∈ ownCalls past ↔ ∃ s s', .own c s r s' ∈ past := by
  simp only [ownCalls, List.mem_filterMap, List.mem_reverse]
  constructor
  · intro h
    obtain ⟨e, he, hsaid⟩ := h
    cases e with
    | own c' s r' s' =>
      cases hsaid
      exact ⟨s, s', he⟩
    | other => cases hsaid
  · intro h
    obtain ⟨s, s', he⟩ := h
    exact ⟨_, he, rfl⟩

/-- The log of a whole run holds a dialogue of the program. -/
theorem Logged.dialogue {a : α} (h : Logged serves others s p past (.done a) t) :
    Program.Dialogue p (ownCalls past) a := by
  have hprefix {q : Program Reply α} {past : List (Event Reply Reply' σ)} {t : σ}
      (h : Logged serves others s p past q t) (said : List (Sigma Reply))
      (hq : Program.Dialogue q said a) : Program.Dialogue p (ownCalls past ++ said) a := by
    induction h generalizing said with
    | nil => exact hq
    | @own past c next t t' r earlier served ih =>
      rw [ownCalls_own, List.append_assoc]
      exact ih (⟨c, r⟩ :: said) (.call hq)
    | other earlier served ih =>
      rw [ownCalls_other]
      exact ih said hq
  simpa using hprefix h [] (.done a)

/-- Calls served one after another, with a step of `R` before each of them and after the last. -/
inductive Spaced (serves : Server Reply σ) (R : σ → σ → Prop) : σ → List (Sigma Reply) → σ → Prop where
  | nil {s t : σ} (gap : R s t) : Spaced serves R s [] t
  | call {s t t' u : σ} {c : C} {r : Reply c} {said : List (Sigma Reply)} (gap : R s t)
      (served : serves c t r t') (rest : Spaced serves R t' said u) : Spaced serves R s (⟨c, r⟩ :: said) u

section spaced
variable {R : σ → σ → Prop} {said : List (Sigma Reply)}

theorem Spaced.later (htrans : ∀ s t u, R s t → R t u → R s u) (h : Spaced serves R s said t)
    {u : σ} (gap : R t u) : Spaced serves R s said u := by
  induction h with
  | nil first => exact .nil (htrans _ _ _ first gap)
  | call first served _ ih => exact .call first served (ih gap)

theorem Spaced.snoc (hrefl : ∀ s, R s s) (h : Spaced serves R s said t) {c : C} {r : Reply c} {u : σ}
    (served : serves c t r u) : Spaced serves R s (said ++ [⟨c, r⟩]) u := by
  induction h with
  | nil gap => exact .call gap served (.nil (hrefl u))
  | call gap first _ ih => exact .call gap first (ih served)

/-- Each call was served somewhere between the start and the end. -/
theorem Spaced.mem (h : Spaced serves R s said t) (htrans : ∀ s t u, R s t → R t u → R s u)
    (hserves : ∀ c s r s', serves c s r s' → R s s') :
    R s t ∧ ∀ e ∈ said, ∃ u u', R s u ∧ serves e.1 u e.2 u' ∧ R u t := by
  induction h with
  | nil gap => exact ⟨gap, fun e he => by cases he⟩
  | call gap served _ ih =>
    have hstep := hserves _ _ _ _ served
    refine ⟨htrans _ _ _ gap (htrans _ _ _ hstep ih.1), List.forall_mem_cons.mpr ⟨?_, fun e he => ?_⟩⟩
    · exact ⟨_, _, gap, served, htrans _ _ _ hstep ih.1⟩
    · obtain ⟨u, u', hu, hserved, hut⟩ := ih.2 e he
      exact ⟨u, u', htrans _ _ _ gap (htrans _ _ _ hstep hu), hserved, hut⟩

/-- What others do between the calls of a run comes down to steps of a preorder, where every call
of theirs is one. -/
theorem Logged.spaced {I : σ → Prop} (hrefl : ∀ s, R s s)
    (htrans : ∀ s t u, R s t → R t u → R s u) (h : Logged serves others s p past q t) (hs : I s)
    (hserves : ∀ c s r s', I s → serves c s r s' → I s')
    (hothers : ∀ d s r s', I s → others d s r s' → I s' ∧ R s s') :
    I t ∧ Spaced (fun c s r s' => I s ∧ serves c s r s') R s (ownCalls past) t := by
  induction h with
  | nil => exact ⟨hs, .nil (hrefl s)⟩
  | own _ served ih =>
    rw [ownCalls_own]
    exact ⟨hserves _ _ _ _ ih.1 served, ih.2.snoc hrefl ⟨ih.1, served⟩⟩
  | other _ served ih =>
    obtain ⟨hI, hR⟩ := hothers _ _ _ _ ih.1 served
    rw [ownCalls_other]
    exact ⟨hI, ih.2.later htrans hR⟩

end spaced

/-- A run with nobody else around and every call served by a function. -/
def play (serve : (c : C) → σ → Reply c × σ) :
    Program Reply α → σ → List (Event Reply Reply' σ) → List (Event Reply Reply' σ) × α × σ
  | .done a, s, past => (past, a, s)
  | .call c next, s, past =>
    play serve (next (serve c s).1) (serve c s).2 (.own c s (serve c s).1 (serve c s).2 :: past)

theorem logged_play {serve : (c : C) → σ → Reply c × σ}
    (hserve : ∀ c s, serves c s (serve c s).1 (serve c s).2)
    (h : Logged serves others s p past q t) :
    Logged serves others s p (play serve q t past).1 (.done (play serve q t past).2.1)
      (play serve q t past).2.2 := by
  induction q generalizing past t with
  | done a => exact h
  | call c next ih => exact ih _ (.own h (hserve c t))

/-- A run in which a script says when somebody else acts. -/
def playAmong (serve : (c : C) → σ → Reply c × σ) (disturb : (d : D) → σ → Reply' d × σ) :
    List (Option D) → Program Reply α → σ → List (Event Reply Reply' σ) →
      List (Event Reply Reply' σ) × α × σ
  | [], p, s, past => play serve p s past
  | some d :: script, p, s, past =>
    playAmong serve disturb script p (disturb d s).2
      (.other d s (disturb d s).1 (disturb d s).2 :: past)
  | none :: script, .done a, s, past => playAmong serve disturb script (.done a) s past
  | none :: script, .call c next, s, past =>
    playAmong serve disturb script (next (serve c s).1) (serve c s).2
      (.own c s (serve c s).1 (serve c s).2 :: past)

theorem logged_playAmong {serve : (c : C) → σ → Reply c × σ} {disturb : (d : D) → σ → Reply' d × σ}
    {script : List (Option D)} (hserve : ∀ c s, serves c s (serve c s).1 (serve c s).2)
    (hdisturb : ∀ d s, some d ∈ script → others d s (disturb d s).1 (disturb d s).2)
    (h : Logged serves others s p past q t) :
    Logged serves others s p (playAmong serve disturb script q t past).1
      (.done (playAmong serve disturb script q t past).2.1)
      (playAmong serve disturb script q t past).2.2 := by
  induction script generalizing q past t with
  | nil => exact logged_play hserve h
  | cons turn script ih =>
    have hrest (d : D) (s : σ) (hd : some d ∈ script) : others d s (disturb d s).1 (disturb d s).2 :=
      hdisturb d s (List.mem_cons_of_mem turn hd)
    cases turn with
    | some d => exact ih hrest (.other h (hdisturb d t List.mem_cons_self))
    | none =>
      cases q with
      | done a => exact ih hrest h
      | call c next => exact ih hrest (.own h (hserve c t))

end WayPoint.Foundations
