import WayPoint.Manager.Carried

/-! Sections under a clock that never goes back, with ages compared exactly, and the two that are
signs of life of an instance: an accepted heartbeat and a registration. -/
namespace WayPoint.Manager
open Foundations

/-- The store and the last reading of the clock. -/
structure TimedStore where
  store : InnerService
  now : TimestampMs

/-- Every section happens at one time, not before the one that preceded it. -/
def timed : Server Section.Reply TimedStore := fun c a r b =>
  a.now.timestampMs.toNat ≤ b.now.timestampMs.toNat ∧ ∃ order, FiniteMap.Enumerates order a.store ∧
    c.runBy .exact (Stream'.const b.now) order a.store = (r, b.store)

/-- The section is a heartbeat of `x` that is answered `true`. -/
def Section.beats (x : String) : (c : Section) → c.Reply → Prop
  | .apply request, r =>
    request.instanceId = some ⟨x⟩ ∧ request.healthCheck.isSome ∧ r = Except.ok true
  | _, _ => False

/-- The section registers `x` anew. -/
def Section.inserts (x : String) : (c : Section) → c.Reply → Prop
  | .insertBlank instanceId _, r => instanceId.instanceId = x ∧ r = true
  | _, _ => False

variable {a b : TimedStore} {c : Section} {r : c.Reply} {x : String}

theorem mem_const {t now : TimestampMs} (h : t ∈ Stream'.const now) : t = now := by
  obtain ⟨n, hn⟩ := h
  exact hn

theorem timed_apply_iff {request : InstanceDescription} {r : Except Status Bool} :
    timed (.apply request) a r b ↔ a.now.timestampMs.toNat ≤ b.now.timestampMs.toNat ∧
      ∃ later, (applyToInstanceDescription request).exec a.store (Stream'.const b.now) =
        (r, b.store, later) := by
  refine and_congr_right fun _ => ?_
  rcases hrun : (applyToInstanceDescription request).exec a.store (Stream'.const b.now) with ⟨r', s', later⟩
  simp only [Section.runBy, hrun, Prod.mk.injEq, exists_eq_right', exists_and_left]
  constructor
  · intro h
    obtain ⟨_, _, hr⟩ := h
    simpa using hr
  · intro hr
    obtain ⟨order, ho⟩ := FiniteMap.exists_enumerates a.store
    exact ⟨order, ho, by simpa using hr⟩

/-- What a section makes of the entry at `x`, on a store whose ids are in place. -/
inductive EntryStep (x : String) (c : Section) (r : c.Reply) (s : InnerService) (now : TimestampMs)
    (d' : InstanceDescription) : Prop where
  | inserted (h : c.inserts x r) (t : Option Int32) (blank : d' = blankDescription ⟨x⟩ t now)
  | kept (h : ¬ c.inserts x r) {d : InstanceDescription} (found : s.lookup x = some d)
      (created : d'.createdTimestampMs = d.createdTimestampMs)
      (instanceType : d'.instanceType = d.instanceType)
      (silent : ¬ c.beats x r → d'.healthCheck = d.healthCheck)
      (alive : c.beats x r → d'.healthCheck.bind HealthCheck.timestampMs = some now)

theorem Effect.entryStep {s : InnerService} {now : TimestampMs} {y : InstanceId}
    {request d d' : InstanceDescription} (hi : request.instanceId = some y)
    (he : Effect (Stream'.const now) y request x d d') (hd : s.lookup x = some d) :
    EntryStep x (.apply request) (.ok true) s now d' := by
  have hhealth := he.healthCheck
  refine .kept id hd he.createdTimestampMs he.instanceType (fun hb => ?_) ?_
  · by_cases hx : x = y.instanceId
    · subst hx
      rw [incoming_self] at hhealth
      cases hv : request.healthCheck with
      | none => rwa [hv] at hhealth
      | some v => exact absurd ⟨hi, by simp [hv], rfl⟩ hb
    · rwa [incoming_other hx] at hhealth
  · intro h
    obtain ⟨hx, hv, _⟩ := h
    obtain rfl : y = ⟨x⟩ := Option.some.inj (hi.symm.trans hx)
    rw [incoming_self] at hhealth
    obtain ⟨v, hv⟩ := Option.isSome_iff_exists.mp hv
    rw [hv] at hhealth
    obtain ⟨t, ht, hd'⟩ := hhealth
    rw [hd', mem_const ht]
    rfl

/-- A section that is no sign of life and leaves the store alone. -/
theorem EntryStep.refl {s : InnerService} {now : TimestampMs} {d : InstanceDescription}
    (hi : ¬ c.inserts x r) (hb : ¬ c.beats x r) (hd : s.lookup x = some d) :
    EntryStep x c r s now d :=
  .kept hi hd rfl rfl (fun _ => rfl) (fun h => absurd h hb)

theorem timed_entry (hn : Named a.store) (h : timed c a r b) {d : InstanceDescription}
    (hd : b.store.lookup x = some d) : EntryStep x c r a.store b.now d := by
  cases c with
  | apply request =>
    obtain ⟨_, later, hrun⟩ := timed_apply_iff.mp h
    rcases apply_effect hn hrun with ⟨hr, hsame⟩ | ⟨rfl, y, hy, he⟩
    · rw [hsame] at hd
      exact .refl id (fun hb => hr hb.2.2) hd
    · obtain ⟨u, hu, heff⟩ := he.back hd
      exact heff.entryStep hy.instanceId hu
  | insertBlank id t =>
    obtain ⟨_, order, _, hrun⟩ := h
    simp only [Section.runBy, insertBlank] at hrun
    split at hrun
    · obtain ⟨rfl, hsame⟩ := Prod.mk.inj hrun
      rw [← hsame] at hd
      exact .refl (fun hi => by cases hi.2) (fun hb => hb) hd
    · next hnone =>
      obtain ⟨rfl, hinsert⟩ := Prod.mk.inj hrun
      rw [← hinsert, FiniteMap.lookup_insert_eq] at hd
      split at hd
      · next hx =>
        cases hd
        exact .inserted ⟨hx.symm, rfl⟩ t (by rw [hx]; rfl)
      · next hx => exact .refl (fun hi => hx hi.1.symm) (fun hb => hb) hd
  | remove key =>
    obtain ⟨_, order, _, hrun⟩ := h
    obtain ⟨_, herase⟩ := Prod.mk.inj hrun
    rw [← herase, FiniteMap.lookup_erase_eq] at hd
    split at hd
    · cases hd
    · exact .refl id (fun hb => hb) hd
  | now | get | getAll | getUnhealth =>
    obtain ⟨_, order, _, hrun⟩ := h
    obtain ⟨_, hsame⟩ := Prod.mk.inj hrun
    rw [← hsame] at hd
    exact .refl id (fun hb => hb) hd

theorem timed_named (hn : Named a.store) (h : timed c a r b) : Named b.store := by
  obtain ⟨_, order, _, hrun⟩ := h
  exact Section.runBy_named hn hrun

end WayPoint.Manager
