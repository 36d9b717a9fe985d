import WayPoint.Manager.Interference

/-! What a store has recorded and nobody takes back: parents, deaths, types and that an instance
has reported. Only the rollback of a registration could. -/
namespace WayPoint.Manager
open Foundations Program

variable {s s' : InnerService} {clock : Clock} {x : InstanceId} {request : InstanceDescription}

/-- An instance of a type that has reported its health. -/
def Reported (s : InnerService) (instanceType : Int32) (x : String) : Prop :=
  ∃ d, s.lookup x = some d ∧ d.instanceType.getD 0 = instanceType ∧ d.healthCheck.isSome

instance (s : InnerService) (instanceType : Int32) (x : String) :
    Decidable (Reported s instanceType x) :=
  inferInstanceAs (Decidable (∃ d ∈ s.lookup x, d.instanceType.getD 0 = instanceType ∧
    d.healthCheck.isSome))

structure Lasts (s s' : InnerService) : Prop where
  hasParent : ∀ {c p}, HasParent s c p → HasParent s' c p
  dead : dead s ⊆ dead s'
  reported : ∀ {instanceType x}, Reported s instanceType x → Reported s' instanceType x

theorem Lasts.refl (s : InnerService) : Lasts s s := ⟨id, subset_rfl, id⟩

theorem Lasts.trans {t : InnerService} (h : Lasts s s') (h' : Lasts s' t) : Lasts s t where
  hasParent hp := h'.hasParent (h.hasParent hp)
  dead := h.dead.trans h'.dead
  reported hr := h'.reported (h.reported hr)

/-- Who is alive later was alive before. -/
theorem Lasts.alive (h : Lasts s s') {x : String} {d : InstanceDescription}
    (hd : s.lookup x = some d) (ha : Alive s' x) : d.killInstanceRequest = none := by
  by_contra hkill
  exact ha.notMem_dead (h.dead ⟨d, hd, Option.isSome_iff_ne_none.mpr hkill⟩)

theorem Advances.dead {hs : Consistent s} (h : Advances s s' hs) : Manager.dead s ⊆ Manager.dead s' := by
  obtain ⟨hs', hsteps⟩ := h
  exact (Ownership.le_of_steps hsteps).2.2

/-- A field that is written is never cleared. -/
theorem Replaced.isSome {T : Type} [SetTimestamp T] {value old new : Option T}
    (h : Replaced clock value old new) (hold : old.isSome) : new.isSome := by
  cases value with
  | none =>
    rw [show new = old from h]
    exact hold
  | some v =>
    obtain ⟨t, _, rfl⟩ := h
    rfl

private theorem reported_changes {R : String → InstanceDescription → InstanceDescription → Prop}
    (h : FiniteMap.Changes R s s') (hR : ∀ k d d', R k d d' → d'.instanceType = d.instanceType ∧
      (d.healthCheck.isSome → d'.healthCheck.isSome)) {instanceType : Int32} {x : String}
    (hx : Reported s instanceType x) : Reported s' instanceType x := by
  obtain ⟨d, hd, htype, hbeat⟩ := hx
  obtain ⟨d', hd', hr⟩ := h.present hd
  obtain ⟨hsame, hkept⟩ := hR x d d' hr
  refine ⟨d', hd', ?_, hkept hbeat⟩
  rw [hsame]
  exact htype

theorem serves_lasts (hs : Consistent s) {c : Section} (hc : c.Keeps) {r : c.Reply}
    (h : serves c s r s') : Lasts s s' := by
  have hadvances : Advances s s' hs := Interference.advances hs ⟨c, r, hc, h⟩
  refine ⟨hadvances.hasParent, hadvances.dead, ?_⟩
  intro instanceType x hx
  cases c with
  | remove key => exact absurd hc id
  | apply request =>
    obtain ⟨clock, later, hrun⟩ := serves_apply_iff.mp h
    rcases apply_effect hs.named hrun with ⟨_, rfl⟩ | ⟨_, y, _, he⟩
    · exact hx
    · exact reported_changes he
        (fun k d d' hd => ⟨hd.instanceType, hd.healthCheck.isSome⟩) hx
  | insertBlank id instanceType =>
    rcases serves_insertBlank_iff.mp h with ⟨_, _, rfl⟩ | ⟨_, hfresh, now, rfl⟩
    · exact hx
    · obtain ⟨d, hd, hreported⟩ := hx
      have hne : x ≠ id.instanceId := by
        rintro rfl
        rw [hfresh] at hd
        cases hd
      exact ⟨d, (Finmap.lookup_insert_of_ne s hne).trans hd, hreported⟩
  | now | get | getAll | getUnhealth =>
    obtain ⟨_, _, _, hrun⟩ := h
    cases hrun
    exact hx

theorem tryUpdate_lasts (hs : Consistent s) {r : Except Status Bool}
    (h : Runs serves s (tryUpdateInstanceDescription request) r s') : Lasts s s' := by
  unfold tryUpdateInstanceDescription at h
  split at h
  · exact serves_lasts hs (c := .apply request) True.intro (runs_perform_iff.mp h)
  · rw [pure_eq, runs_done_iff] at h
    rw [h.2]
    exact .refl s

end WayPoint.Manager
