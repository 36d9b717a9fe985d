import Mathlib.Algebra.Order.Ring.Int

/-! Ages computed as differences of unsigned 64-bit times. The difference wraps when the event
lies after the clock, and a wrapped age looks old. -/
namespace WayPoint.Foundations

/-- The age as an integer, negative for an event after the clock. -/
def trueAge (now event : UInt64) : Int := now.toNat - event.toNat

/-- The event lies after the clock, close enough that the wrapped age exceeds the limit. -/
def LooksOlder (now event limit : UInt64) : Prop :=
  now.toNat < event.toNat ∧ event.toNat + limit.toNat < now.toNat + 2^64

instance (now event limit : UInt64) : Decidable (LooksOlder now event limit) :=
  inferInstanceAs (Decidable (_ ∧ _))

theorem lt_sub_iff (now event limit : UInt64) :
    limit < now - event ↔ (limit.toNat : Int) < trueAge now event ∨ LooksOlder now event limit := by
  have hn := now.toNat_lt
  have he := event.toNat_lt
  rw [UInt64.lt_iff_toNat_lt, UInt64.toNat_sub, trueAge, LooksOlder]
  omega

theorem sub_lt_iff (now event : UInt64) {limit : UInt64} (h : 0 < limit.toNat) :
    now - event < limit ↔
      trueAge now event < limit.toNat ∧ ¬ LooksOlder now event (limit - 1) := by
  have hn := now.toNat_lt
  have he := event.toNat_lt
  have hl := limit.toNat_lt
  rw [UInt64.lt_iff_toNat_lt, UInt64.toNat_sub, trueAge, LooksOlder, UInt64.toNat_sub]
  simp only [UInt64.reduceToNat]
  omega

theorem not_looksOlder_of_le {now event : UInt64} (h : event.toNat ≤ now.toNat) (limit : UInt64) :
    ¬ LooksOlder now event limit := by
  intro holder
  obtain ⟨hlt, _⟩ := holder
  omega

end WayPoint.Foundations
