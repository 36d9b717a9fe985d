import Mathlib.Data.Finset.Sort
import WayPoint.Manager.Work

/-! Runs given by the turns of their threads. All that the server may choose in a section is the
readings of its clock and the order in which the map's iterator yields the keys. -/
namespace WayPoint.Manager
open Foundations Program System

variable {ι : Type} [DecidableEq ι] {s s' : InnerService} {works : ι → Work}

/-- The clock of a section, and the order in which its map would list any set of keys. -/
structure Moment where
  clock : Clock
  keyOrder : Finset String → List String
  lists : ∀ keys, (keyOrder keys : Multiset String) = keys.val

def Moment.entries (m : Moment) (s : InnerService) : Entries := s.inKeyOrder (m.keyOrder s.keys)

theorem Moment.enumerates_entries (m : Moment) (s : InnerService) :
    FiniteMap.Enumerates (m.entries s) s :=
  FiniteMap.enumerates_inKeyOrder (m.lists s.keys)

/-- One time throughout, keys in increasing order. -/
def Moment.sorted (now : TimestampMs) : Moment where
  clock := Stream'.const now
  keyOrder keys := keys.sort
  lists keys := keys.sort_eq (· ≤ ·)

instance : Nonempty Moment := ⟨.sorted ⟨0⟩⟩

def Section.during (m : Moment) (c : Section) (s : InnerService) : c.Reply × InnerService :=
  c.run m.clock (m.entries s) s

theorem serves_during (m : Moment) (c : Section) (s : InnerService) :
    serves c s (c.during m s).1 (c.during m s).2 :=
  ⟨m.clock, m.entries s, m.enumerates_entries s, rfl⟩

private theorem exists_during {c : Section} {r : c.Reply} (h : serves c s r s') :
    ∃ m, c.during m s = (r, s') := by
  obtain ⟨clock, order, he, hrun⟩ := h
  refine ⟨⟨clock, fun keys => if keys = s.keys then order.map Sigma.fst else keys.sort,
    fun keys => ?_⟩, ?_⟩
  · split
    · next hk => rw [hk, he.coe_keys]
    · exact keys.sort_eq (· ≤ ·)
  · simp only [Section.during, Moment.entries, if_true, he.eq_inKeyOrder]
    exact hrun

/-- All threads taking their turns, from a store that no thread has touched yet. -/
def played (works : ι → Work) (s : InnerService) (turns : List (ι × Moment)) : WorkConfig ι :=
  (workers works).timetable Section.during (.initial s) turns

theorem played_concat (works : ι → Work) (s : InnerService) (turns : List (ι × Moment)) (i : ι)
    (m : Moment) : played works s (turns ++ [(i, m)]) =
      (workers works).turn (Section.during m) (played works s turns) i :=
  timetable_concat turns i m

/-- The turns and their moments account for every run and for nothing else, so what holds however turns are
played holds of every run. -/
theorem reaches_iff_played {cfg : WorkConfig ι} :
    (workers works).Reaches (fun _ _ => True) (.initial s) cfg ↔ ∃ turns, played works s turns = cfg := by
  constructor
  · intro h
    obtain ⟨past, hpast⟩ := h.traced
    exact hpast.exists_timetable (fun _ _ _ _ => exists_during) (fun _ _ => id)
  · intro h
    obtain ⟨turns, rfl⟩ := h
    induction turns using List.reverseRecOn with
    | nil => exact .refl
    | append_singleton turns turn ih =>
      rw [played_concat]
      exact ih.trans (reaches_turn (serves_during turn.2) _ turn.1)

end WayPoint.Manager
