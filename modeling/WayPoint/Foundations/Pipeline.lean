import Mathlib.Data.List.Nodup
import Mathlib.Logic.Function.Basic

/-! Requests that are answered in their order, and answers that are taken in their order. Nothing says
whose an answer is but its place; the tags say it for the proofs. -/
namespace WayPoint.Foundations

structure Pipeline (ι α β : Type) where
  unanswered : List (ι × α) := []
  /-- Answers nobody has taken yet. -/
  arrived : List (ι × β) := []
  produced : ι → Option β := fun _ => none

namespace Pipeline
variable {ι α β : Type} {p p' : Pipeline ι α β} {i j : ι} {b : β}

def submit (p : Pipeline ι α β) (i : ι) (request : α) : Pipeline ι α β :=
  { p with unanswered := p.unanswered ++ [(i, request)] }

def answer [DecidableEq ι] (p : Pipeline ι α β) (b : β) : Pipeline ι α β :=
  match p.unanswered with
  | [] => p
  | (i, _) :: later =>
    { unanswered := later, arrived := p.arrived ++ [(i, b)], produced := Function.update p.produced i (some b) }

def take (p : Pipeline ι α β) : Option (β × Pipeline ι α β) :=
  match p.arrived with
  | [] => none
  | (_, b) :: later => some (b, { p with arrived := later })

/-- Whose answers are still to be taken, in the order in which they will be. -/
def queue (p : Pipeline ι α β) : List ι := p.arrived.map Prod.fst ++ p.unanswered.map Prod.fst

/-- Nobody has two requests on the way, and what has arrived is what was produced. -/
structure Matched (p : Pipeline ι α β) : Prop where
  nodup : p.queue.Nodup
  arrived : ∀ e ∈ p.arrived, p.produced e.1 = some e.2

theorem matched_empty : Matched ({} : Pipeline ι α β) := ⟨List.nodup_nil, fun e he => by cases he⟩

@[simp] theorem queue_submit (p : Pipeline ι α β) (i : ι) (request : α) :
    (p.submit i request).queue = p.queue ++ [i] := by
  simp [queue, submit]

@[simp] theorem produced_submit (p : Pipeline ι α β) (i : ι) (request : α) :
    (p.submit i request).produced = p.produced := rfl

theorem Matched.submit (h : p.Matched) (hi : i ∉ p.queue) (request : α) : (p.submit i request).Matched := by
  refine ⟨?_, h.arrived⟩
  rw [queue_submit, List.nodup_append]
  refine ⟨h.nodup, List.pairwise_singleton _ _, fun j hj k hk heq => hi ?_⟩
  rw [List.mem_singleton] at hk
  rwa [← hk, ← heq]

/-- What is taken is the answer of whoever is first. -/
theorem Matched.take (h : p.Matched) (htake : p.take = some (b, p')) :
    p'.Matched ∧ p'.produced = p.produced ∧
      ∃ i, p.queue = i :: p'.queue ∧ p.produced i = some b := by
  unfold Pipeline.take at htake
  split at htake
  · cases htake
  · next i c later heq =>
    cases htake
    have hqueue : p.queue = i :: queue { p with arrived := later } := by simp [queue, heq]
    have hnodup := h.nodup
    rw [hqueue, List.nodup_cons] at hnodup
    exact ⟨⟨hnodup.2, fun e he => h.arrived e (heq ▸ List.mem_cons_of_mem _ he)⟩, rfl, i, hqueue,
      h.arrived (i, b) (heq ▸ List.mem_cons_self)⟩

section answer
variable [DecidableEq ι]

@[simp] theorem queue_answer (p : Pipeline ι α β) (b : β) : (p.answer b).queue = p.queue := by
  unfold answer
  split
  · rfl
  · next i request later heq => simp [queue, heq]

/-- An answer that nobody waits for any more stays what it is. -/
theorem produced_answer (h : i ∉ p.queue) (b : β) : (p.answer b).produced i = p.produced i := by
  unfold answer
  split
  · rfl
  · next j request later heq =>
    have hne : i ≠ j := by
      intro hij
      exact h (by simp [queue, heq, hij])
    exact Function.update_of_ne hne _ _

theorem Matched.answer (h : p.Matched) (b : β) : (p.answer b).Matched := by
  refine ⟨by rw [queue_answer]; exact h.nodup, ?_⟩
  unfold Pipeline.answer
  split
  · exact h.arrived
  · next j request later heq =>
    have hnodup := h.nodup
    rw [queue, heq, List.map_cons, List.nodup_append] at hnodup
    intro e he
    rcases List.mem_append.mp he with he | he
    · have hne : e.1 ≠ j := hnodup.2.2 e.1 (List.mem_map_of_mem he) j List.mem_cons_self
      exact (Function.update_of_ne hne _ _).trans (h.arrived e he)
    · rw [List.mem_singleton] at he
      subst he
      exact Function.update_self j _ _

end answer
end Pipeline
end WayPoint.Foundations
