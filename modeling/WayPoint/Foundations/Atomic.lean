import Mathlib.Data.List.Dedup
import WayPoint.Foundations.Exceptions
import WayPoint.Foundations.Turns

/-! Threads that carry out operations of at most one call each. However their calls interleave, the
operations have taken place one after another. -/
namespace WayPoint.Foundations
variable {C ι κ : Type} {Reply : C → Type} {σ α β : Type}

namespace Program

/-- Whatever the replies, no more than `n` calls are made. -/
def AtMost : Nat → Program Reply α → Prop
  | _, .done _ => True
  | 0, .call _ _ => False
  | n + 1, .call _ next => ∀ r, (next r).AtMost n

theorem AtMost.mono {m n : Nat} {p : Program Reply α} (h : p.AtMost m) (hmn : m ≤ n) : p.AtMost n := by
  induction p generalizing m n with
  | done a =>
    cases n <;> trivial
  | call c next ih =>
    cases m with
    | zero => exact h.elim
    | succ m =>
      cases n with
      | zero => omega
      | succ n => exact fun r => ih r (h r) (by omega)

theorem AtMost.bind {m n : Nat} {p : Program Reply α} {f : α → Program Reply β} (hp : p.AtMost m)
    (hf : ∀ a, (f a).AtMost n) : (p >>= f).AtMost (m + n) := by
  induction p generalizing m with
  | done a => exact (hf a).mono (by omega)
  | call c next ih =>
    cases m with
    | zero => exact hp.elim
    | succ m =>
      rw [Nat.add_right_comm]
      exact fun r => ih r (hp r)

theorem AtMost.length_le {n : Nat} {p : Program Reply α} (h : p.AtMost n) {said : List (Sigma Reply)}
    {a : α} (hsaid : p.Dialogue said a) : said.length ≤ n := by
  induction hsaid generalizing n with
  | done a => exact Nat.zero_le n
  | call rest ih =>
    cases n with
    | zero => exact h.elim
    | succ n => exact Nat.succ_le_succ (ih (h _))

section exceptions
variable {ε : Type} {m n : Nat} {x : ExceptT ε (Program Reply) α} {f : α → ExceptT ε (Program Reply) β}
  {handler : ε → ExceptT ε (Program Reply) α}

end exceptions
end Program

/-- A dialogue taken apart: operations with their answers, and idle calls between them. -/
inductive Conducts (perform : κ → Program Reply β) (idle : Sigma Reply → Prop) :
    List (κ × β) → List (Sigma Reply) → Prop where
  | nil : Conducts perform idle [] []
  | idle {e : Sigma Reply} {ops : List (κ × β)} {said : List (Sigma Reply)} (h : idle e)
      (later : Conducts perform idle ops said) : Conducts perform idle ops (e :: said)
  | operation {k : κ} {b : β} {first said : List (Sigma Reply)} {ops : List (κ × β)}
      (h : (perform k).Dialogue first b) (later : Conducts perform idle ops said) :
      Conducts perform idle ((k, b) :: ops) (first ++ said)

/-- Operations one after another. -/
inductive Carried (serves : Server Reply σ) (perform : κ → Program Reply β) :
    σ → List (κ × β) → σ → Prop where
  | nil (s : σ) : Carried serves perform s [] s
  | cons {k : κ} {b : β} {ops : List (κ × β)} {s t u : σ} (h : Program.Runs serves s (perform k) b t)
      (later : Carried serves perform t ops u) : Carried serves perform s ((k, b) :: ops) u

section conducts
variable {perform : κ → Program Reply β} {idle : Sigma Reply → Prop} {serves : Server Reply σ}
  {ops : List (κ × β)} {s t : σ}

/-- Operations that ask for nothing. -/
def Still (perform : κ → Program Reply β) (ops : List (κ × β)) : Prop :=
  ∀ op ∈ ops, perform op.1 = .done op.2

private theorem still_nil : Still perform ([] : List (κ × β)) := fun _ hop => by cases hop

theorem still_cons_iff {op : κ × β} :
    Still perform (op :: ops) ↔ perform op.1 = .done op.2 ∧ Still perform ops := List.forall_mem_cons

theorem Still.carried (h : Still perform ops) : Carried serves perform s ops s := by
  induction ops with
  | nil => exact .nil s
  | cons op ops ih =>
    obtain ⟨hop, hops⟩ := still_cons_iff.mp h
    refine .cons ?_ (ih hops)
    rw [hop]
    exact .done s op.2

theorem Carried.append {ops' : List (κ × β)} {u : σ} (h : Carried serves perform s ops t)
    (h' : Carried serves perform t ops' u) : Carried serves perform s (ops ++ ops') u := by
  induction h with
  | nil s => exact h'
  | cons hrun later ih => exact .cons hrun (ih h')

private theorem eq_done_of_dialogue_nil {p : Program Reply β} {b : β} (h : p.Dialogue [] b) : p = .done b := by
  cases h
  rfl

/-- With nothing said only still operations are left. -/
theorem Conducts.still {said : List (Sigma Reply)} (h : Conducts perform idle ops said) (hsaid : said = []) :
    Still perform ops := by
  induction h with
  | nil => exact still_nil
  | idle _ _ _ => cases hsaid
  | operation h later ih =>
    obtain ⟨rfl, rfl⟩ := List.append_eq_nil_iff.mp hsaid
    exact still_cons_iff.mpr ⟨eq_done_of_dialogue_nil h, ih rfl⟩

/-- The next call is an idle one, or the only one of the first operation that is not still. -/
theorem Conducts.next (hatomic : ∀ k, (perform k).AtMost 1) {e : Sigma Reply}
    {said rest : List (Sigma Reply)} (h : Conducts perform idle ops said) (hsaid : said = e :: rest) :
    ∃ first later, ops = first ++ later ∧ Conducts perform idle later rest ∧
      (idle e ∧ Still perform first ∨
        ∃ before k b, first = before ++ [(k, b)] ∧ Still perform before ∧ (perform k).Dialogue [e] b) := by
  induction h with
  | nil => cases hsaid
  | @idle e' ops said hidle later ih =>
    cases hsaid
    exact ⟨[], ops, rfl, later, Or.inl ⟨hidle, still_nil⟩⟩
  | @operation k b said₁ said₂ ops h later ih =>
    cases said₁ with
    | nil =>
      have hk := eq_done_of_dialogue_nil h
      obtain ⟨first, ops', rfl, hconducts, hnext⟩ := ih hsaid
      refine ⟨(k, b) :: first, ops', rfl, hconducts, ?_⟩
      rcases hnext with ⟨he, hstill⟩ | ⟨before, k', b', rfl, hstill, he⟩
      · exact Or.inl ⟨he, still_cons_iff.mpr ⟨hk, hstill⟩⟩
      · exact Or.inr ⟨(k, b) :: before, k', b', rfl, still_cons_iff.mpr ⟨hk, hstill⟩, he⟩
    | cons e' more =>
      have hlength := (hatomic k).length_le h
      obtain rfl : more = [] := List.length_eq_zero_iff.mp (by simpa using hlength)
      cases hsaid
      exact ⟨[(k, b)], ops, rfl, later, Or.inr ⟨[], k, b, rfl, still_nil, h⟩⟩

private theorem runs_of_dialogue_single {p : Program Reply β} {c : C} {r : Reply c} {b : β}
    (h : p.Dialogue [⟨c, r⟩] b) (served : serves c s r t) : Program.Runs serves s p b t := by
  cases h with
  | call rest =>
    have hrest := eq_done_of_dialogue_nil rest
    refine .call served ?_
    rw [hrest]
    exact .done t b

end conducts

section share
variable [DecidableEq ι] {γ : Type}

/-- What one thread has of a list. -/
def share (i : ι) (entries : List (ι × γ)) : List γ :=
  (entries.filter (fun e => decide (e.1 = i))).map Prod.snd

variable {i j : ι}

@[simp] theorem share_append (i : ι) (a b : List (ι × γ)) : share i (a ++ b) = share i a ++ share i b := by
  simp [share]

private theorem share_cons_self (i : ι) (x : γ) (entries : List (ι × γ)) :
    share i ((i, x) :: entries) = x :: share i entries := by
  simp [share]

private theorem share_cons_ne (h : i ≠ j) (x : γ) (entries : List (ι × γ)) :
    share j ((i, x) :: entries) = share j entries := by
  simp [share, h]

private theorem share_tagged_self (i : ι) (xs : List γ) : share i (xs.map (fun x => (i, x))) = xs := by
  induction xs with
  | nil => rfl
  | cons x xs ih => rw [List.map_cons, share_cons_self, ih]

private theorem share_tagged_ne (h : i ≠ j) (xs : List γ) : share j (xs.map (fun x => (i, x))) = [] := by
  induction xs with
  | nil => rfl
  | cons x xs ih => rw [List.map_cons, share_cons_ne h, ih]

/-- Finitely many lists can be put behind one another. -/
theorem exists_share (lists : ι → List γ) {threads : List ι} (hnodup : threads.Nodup)
    (hthreads : ∀ i, i ∉ threads → lists i = []) :
    ∃ entries : List (ι × γ), (∀ i, share i entries = lists i) ∧ ∀ e ∈ entries, e.2 ∈ lists e.1 := by
  induction threads generalizing lists with
  | nil =>
    refine ⟨[], fun i => ?_, fun e he => by cases he⟩
    rw [hthreads i List.not_mem_nil]
    rfl
  | cons j threads ih =>
    obtain ⟨hj, hnodup⟩ := List.nodup_cons.mp hnodup
    obtain ⟨entries, hshare, hmem⟩ := ih (Function.update lists j []) hnodup fun i hi => by
      by_cases hij : i = j
      · rw [hij, Function.update_self]
      · rw [Function.update_of_ne hij]
        exact hthreads i (by simp [hij, hi])
    refine ⟨(lists j).map (fun x => (j, x)) ++ entries, fun i => ?_, fun e he => ?_⟩
    · rw [share_append, hshare]
      by_cases hij : j = i
      · subst hij
        rw [share_tagged_self, Function.update_self, List.append_nil]
      · rw [share_tagged_ne hij, Function.update_of_ne (Ne.symm hij), List.nil_append]
    · rcases List.mem_append.mp he with he | he
      · obtain ⟨x, hx, rfl⟩ := List.mem_map.mp he
        exact hx
      · have hlists := hmem e he
        by_cases hij : e.1 = j
        · rw [hij, Function.update_self] at hlists
          cases hlists
        · rwa [Function.update_of_ne hij] at hlists

end share

/-- The calls of all threads in their order, each starting where the one before it has ended. -/
inductive Chained (serves : Server Reply σ) : σ → List (ι × Served Reply σ) → σ → Prop where
  | nil (s : σ) : Chained serves s [] s
  | cons {i : ι} {c : C} {r : Reply c} {s t u : σ} {later : List (ι × Served Reply σ)}
      (served : serves c s r t) (rest : Chained serves t later u) :
      Chained serves s ((i, ⟨c, s, r, t⟩) :: later) u

theorem Chained.concat {serves : Server Reply σ} {s t u : σ} {log : List (ι × Served Reply σ)}
    (h : Chained serves s log t) {c : C} {r : Reply c} (i : ι) (served : serves c t r u) :
    Chained serves s (log ++ [(i, ⟨c, t, r, u⟩)]) u := by
  induction h with
  | nil s => exact .cons served (.nil u)
  | cons hserved _ ih => exact .cons hserved (ih served)

section merge
variable [DecidableEq ι] {perform : κ → Program Reply β} {idle : Sigma Reply → Prop}
  {serves : Server Reply σ} {s t : σ} {log : List (ι × Served Reply σ)}

/-- Operations of at most one call have taken place one after another, those of each thread in its
order. -/
theorem Chained.carried (hatomic : ∀ k, (perform k).AtMost 1)
    (hidle : ∀ c s r s', idle ⟨c, r⟩ → serves c s r s' → s' = s) (h : Chained serves s log t)
    {threads : List ι} (hnodup : threads.Nodup) {ops : ι → List (κ × β)}
    (hops : ∀ i, Conducts perform idle (ops i) ((share i log).map Served.said))
    (hthreads : ∀ i, i ∉ threads → ops i = []) :
    ∃ order : List (ι × κ × β), (∀ i, share i order = ops i) ∧
      Carried serves perform s (order.map Prod.snd) t := by
  induction h generalizing ops with
  | nil s =>
    obtain ⟨order, hshare, hmem⟩ := exists_share ops hnodup hthreads
    refine ⟨order, hshare, Still.carried fun op hop => ?_⟩
    obtain ⟨e, he, rfl⟩ := List.mem_map.mp hop
    exact (hops e.1).still rfl e.2 (hmem e he)
  | @cons i c r s t u later served rest ih =>
    have hi := hops i
    rw [share_cons_self, List.map_cons] at hi
    obtain ⟨first, ops', hsplit, hfollow, hnext⟩ := hi.next hatomic rfl
    have hfirst : Carried serves perform s first t := by
      rcases hnext with ⟨he, hstill⟩ | ⟨before, k, b, rfl, hstill, he⟩
      · rw [hidle _ _ _ _ he served]
        exact hstill.carried
      · exact hstill.carried.append (.cons (runs_of_dialogue_single he served) (.nil t))
    -- thread `i` is left with what it does after this call
    have hrest (j : ι) : Conducts perform idle (Function.update ops i ops' j) ((share j later).map Served.said) := by
      by_cases hij : i = j
      · subst hij
        rwa [Function.update_self]
      · have hj := hops j
        rwa [Function.update_of_ne (Ne.symm hij), ← share_cons_ne hij ⟨c, s, r, t⟩]
    have hnone (j : ι) (hj : j ∉ threads) : Function.update ops i ops' j = [] := by
      by_cases hij : i = j
      · subst hij
        have hnil := hthreads i hj
        rw [hsplit] at hnil
        rw [Function.update_self]
        exact (List.append_eq_nil_iff.mp hnil).2
      · rw [Function.update_of_ne (Ne.symm hij)]
        exact hthreads j hj
    obtain ⟨order, hshare, hcarried⟩ := ih hrest hnone
    refine ⟨first.map (fun op => (i, op)) ++ order, fun j => ?_, ?_⟩
    · rw [share_append, hshare]
      by_cases hij : i = j
      · subst hij
        rw [share_tagged_self, Function.update_self, hsplit]
      · rw [share_tagged_ne hij, Function.update_of_ne (Ne.symm hij), List.nil_append]
    · rw [List.map_append, List.map_map, show Prod.snd ∘ (fun op : κ × β => (i, op)) = id from rfl,
        List.map_id]
      exact hfirst.append hcarried

end merge

namespace System
variable [DecidableEq ι] {sys : System ι Reply σ α} {origin cfg : Config ι Reply σ α}
  {past : List (ι × Served Reply σ)}

end System
end WayPoint.Foundations
