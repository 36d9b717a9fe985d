import WayPoint.Manager.Applied

/-! Every section but a removal keeps a store consistent, and a removal only ever undoes the
insertion that came before it. -/
namespace WayPoint.Manager
open Foundations Program

variable {s s' : InnerService} {clock : Clock} {x : InstanceId} {request : InstanceDescription}

theorem Effect.stamped {y : String} {d d' : InstanceDescription}
    (h : Effect clock x request y d d') (hd : d.Stamped) : d'.Stamped where
  created := h.createdTimestampMs ▸ hd.created
  kill := by
    rcases h.kill with hk | ⟨_, _, t, _, he⟩
    · exact hk.holds (fun _ _ => rfl) hd.kill
    · rw [he]
      rintro k ⟨⟩
      rfl
  services := h.services.holds (fun _ _ => rfl) hd.services
  parent := h.parent.holds (fun _ _ => rfl) hd.parent
  children r hr := by
    rcases h.childList_mem hr with hr | ⟨q, _, t, _, rfl⟩
    · exact hd.children r hr
    · rfl
  healthCheck := h.healthCheck.holds (fun _ _ => rfl) hd.healthCheck
  proxyMetrics := h.proxyMetrics.holds (fun _ _ => rfl) hd.proxyMetrics
  systemMetrics := h.systemMetrics.holds (fun _ _ => rfl) hd.systemMetrics
  gpuMetrics := h.gpuMetrics.holds (fun _ _ => rfl) hd.gpuMetrics
  llmMetrics := h.llmMetrics.holds (fun _ _ => rfl) hd.llmMetrics

theorem Applied.consistent (h : Applied clock x request s s') (hs : Consistent s)
    (ha : Accepts s x request) : Consistent s' where
  toWellLinked := wellLinked_written hs.toWellLinked ha (h.effect.mono fun _ _ _ he => he.toUpdated)
  deathClosed := by
    rw [DeathClosed, h.dead]
    intro a b hcase hab
    rcases hcase with hdead | hreach
    · rcases (h.hasChild a b).mp hab with hold | hnew
      · exact Or.inl (hs.deathClosed hdead hold)
      · exact absurd hdead (hnew.parent_alive ha).notMem_dead
    · exact Or.inr (reach_closed _ _ hreach hab)
  stamped hd := by
    obtain ⟨u, hu, he⟩ := h.effect.back hd
    exact he.stamped (hs.stamped hu)
  typed hd := by
    obtain ⟨u, hu, he⟩ := h.effect.back hd
    rw [he.instanceType]
    exact hs.typed hu

theorem apply_cases (hs : Consistent s) (request : InstanceDescription) (clock : Clock)
    {r : Except Status Bool} {later : Clock}
    (h : (applyToInstanceDescription request).exec s clock = (r, s', later)) :
    (r ≠ .ok true ∧ s' = s) ∨
      r = .ok true ∧ ∃ x, Accepted s x request ∧ Applied clock x request s s' := by
  by_cases hx : ∃ x, Accepted s x request
  · obtain ⟨x, hx⟩ := hx
    obtain ⟨u, last, hrun, ha⟩ := apply_accepted hs hx clock
    rw [h] at hrun
    cases hrun
    exact Or.inr ⟨rfl, x, hx, ha⟩
  · obtain ⟨r', hne, hrun⟩ := apply_refused hs.named (fun x hx' => hx ⟨x, hx'⟩) clock
    rw [h] at hrun
    cases hrun
    exact Or.inl ⟨hne, rfl⟩

theorem lookup_blank_ne {y : String} {x : String} {d : InstanceDescription} (hy : y ≠ x) :
    (s.insert x d).lookup y = s.lookup y := Finmap.lookup_insert_of_ne s hy

private theorem childList_blank (x : InstanceId) (t : Option Int32) (now : TimestampMs) :
    (blankDescription x t now).childList = [] := rfl

section blank
variable (t : Option Int32) (now : TimestampMs) (hx : s.lookup x.instanceId = none)
include hx

theorem hasParent_blank (c p : String) :
    HasParent (s.insert x.instanceId (blankDescription x t now)) c p ↔ HasParent s c p := by
  by_cases hc : c = x.instanceId
  · subst hc
    simp [HasParent, hx, blankDescription]
  · simp only [HasParent, lookup_blank_ne hc]

private theorem hasChild_blank (p c : String) :
    HasChild (s.insert x.instanceId (blankDescription x t now)) p c ↔ HasChild s p c := by
  by_cases hp : p = x.instanceId
  · subst hp
    simp [HasChild, hx, childList_blank]
  · simp only [HasChild, lookup_blank_ne hp]

theorem dead_blank : dead (s.insert x.instanceId (blankDescription x t now)) = dead s := by
  ext y
  by_cases hy : y = x.instanceId
  · subst hy
    simp [dead, hx, blankDescription]
  · simp only [dead, Set.mem_ofPred_eq, lookup_blank_ne hy]

end blank

private theorem mem_insert_of_mem {y k : String} {d : InstanceDescription} (h : y ∈ s) : y ∈ s.insert k d :=
  Finmap.mem_insert.mpr (Or.inr h)

theorem blank_stamped (x : InstanceId) (t : Option Int32) (now : TimestampMs) :
    (blankDescription x t now).Stamped := by
  constructor <;> simp [blankDescription, InstanceDescription.childList]

/-- A blank entry under a fresh id has no links and no kill request. -/
theorem blank_consistent (hs : Consistent s) (hx : s.lookup x.instanceId = none)
    (t : InstanceType) (now : TimestampMs) :
    Consistent (s.insert x.instanceId (blankDescription x (some t.toI32) now)) where
  key {k d} hd := by
    rw [FiniteMap.lookup_insert_eq] at hd
    split at hd
    · next hk => subst hk; cases hd; rfl
    · exact hs.key hd
  parent {k d r} hd hr := by
    rw [FiniteMap.lookup_insert_eq] at hd
    split at hd
    · cases hd; cases hr
    · obtain ⟨p, hp, hps, hne⟩ := hs.parent hd hr
      exact ⟨p, hp, mem_insert_of_mem hps, hne⟩
  child {k d r} hd hr := by
    rw [FiniteMap.lookup_insert_eq] at hd
    split at hd
    · cases hd; cases hr
    · obtain ⟨c, hc, hcs, hne⟩ := hs.child hd hr
      exact ⟨c, hc, mem_insert_of_mem hcs, hne⟩
  agree c p := by
    rw [hasParent_blank _ _ hx, hasChild_blank _ _ hx, hs.agree]
  deathClosed := by
    rw [DeathClosed, dead_blank _ _ hx]
    intro a b ha hab
    exact hs.deathClosed ha ((hasChild_blank _ _ hx a b).mp hab)
  stamped {k d} hd := by
    rw [FiniteMap.lookup_insert_eq] at hd
    split at hd
    · cases hd
      exact blank_stamped x (some t.toI32) now
    · exact hs.stamped hd
  typed {k d} hd := by
    rw [FiniteMap.lookup_insert_eq] at hd
    split at hd
    · cases hd; exact ⟨t, rfl⟩
    · exact hs.typed hd

theorem insertBlank_cases {x : InstanceId} {t : Option Int32} {clock : Clock} {inserted : Bool}
    (h : insertBlank x t s clock = (inserted, s')) :
    (inserted = false ∧ (s.lookup x.instanceId).isSome ∧ s' = s) ∨
      (inserted = true ∧ s.lookup x.instanceId = none ∧
        s' = s.insert x.instanceId (blankDescription x t clock.head)) := by
  unfold insertBlank at h
  split at h
  · next hx =>
    cases h
    exact Or.inl ⟨rfl, hx, rfl⟩
  · next hx =>
    cases h
    exact Or.inr ⟨rfl, by simpa using hx, rfl⟩

/-- An entry is found, or a blank one is made with some reading of the clock. -/
theorem serves_insertBlank_iff {id : InstanceId} {t : Option Int32} {r : Bool} :
    serves (.insertBlank id t) s r s' ↔
      (r = false ∧ (s.lookup id.instanceId).isSome ∧ s' = s) ∨
      (r = true ∧ s.lookup id.instanceId = none ∧
        ∃ now, s' = s.insert id.instanceId (blankDescription id t now)) := by
  constructor
  · intro hserve
    obtain ⟨clock, order, _, h⟩ := hserve
    rcases insertBlank_cases h with hfound | ⟨hr, hx, hs'⟩
    · exact Or.inl hfound
    · exact Or.inr ⟨hr, hx, clock.head, hs'⟩
  · intro hcases
    obtain ⟨order, ho⟩ := FiniteMap.exists_enumerates s
    rcases hcases with ⟨rfl, hx, rfl⟩ | ⟨rfl, hx, now, rfl⟩
    · exact ⟨Stream'.const ⟨0⟩, order, ho, if_pos hx⟩
    · exact ⟨Stream'.const now, order, ho, if_neg (by simp [hx])⟩

theorem serves_apply_iff {r : Except Status Bool} :
    serves (.apply request) s r s' ↔
      ∃ clock later, (applyToInstanceDescription request).exec s clock = (r, s', later) := by
  constructor
  · intro hserve
    obtain ⟨clock, order, _, h⟩ := hserve
    rcases hr : (applyToInstanceDescription request).exec s clock with ⟨r', u, later⟩
    simp only [Section.run, Section.runBy, hr, Prod.mk.injEq] at h
    obtain ⟨rfl, rfl⟩ := h
    exact ⟨clock, later, hr⟩
  · intro happly
    obtain ⟨clock, later, h⟩ := happly
    obtain ⟨order, ho⟩ := FiniteMap.exists_enumerates s
    exact ⟨clock, order, ho, by simp only [Section.run, Section.runBy, h]⟩

theorem serves_remove_iff {key : String} {r : Unit} :
    serves (.remove key) s r s' ↔ s' = s.erase key := by
  constructor
  · intro hserve
    obtain ⟨clock, order, _, h⟩ := hserve
    cases h
    rfl
  · rintro rfl
    obtain ⟨order, ho⟩ := FiniteMap.exists_enumerates s
    exact ⟨Stream'.const ⟨0⟩, order, ho, rfl⟩

theorem Named.erase {s : InnerService} (hs : Named s) (key : String) : Named (s.erase key) := by
  have hback {k : String} {d : InstanceDescription} (hd : (s.erase key).lookup k = some d) :
      s.lookup k = some d := by
    rw [FiniteMap.lookup_erase_eq] at hd
    split at hd
    · cases hd
    · exact hd
  exact ⟨fun hd => hs.key (hback hd), fun hd => hs.parent (hback hd), fun hd => hs.child (hback hd)⟩

theorem Named.insertBlank {s : InnerService} (hs : Named s) (id : InstanceId) (t : Option Int32)
    (clock : Clock) : Named (Manager.insertBlank id t s clock).2 := by
  unfold Manager.insertBlank
  split
  · exact hs
  · refine ⟨fun hd => ?_, fun hd hr => ?_, fun hd hr => ?_⟩
    all_goals
      rw [FiniteMap.lookup_insert_eq] at hd
      split at hd
    · next hk =>
      cases hd
      rw [hk]
      rfl
    · exact hs.key hd
    · cases hd
      cases hr
    · exact hs.parent hd hr
    · cases hd
      cases hr
    · exact hs.child hd hr

/-- Ids stay in place under every section, the removal of a linked entry included. -/
theorem Section.runBy_named (hs : Named s) {age : AgeTest} {order : Entries} {c : Section}
    {r : c.Reply} (h : c.runBy age clock order s = (r, s')) : Named s' := by
  cases c with
  | apply request =>
    rcases hrun : (applyToInstanceDescription request).exec s clock with ⟨r', u, later⟩
    simp only [Section.runBy, hrun, Prod.mk.injEq] at h
    obtain ⟨rfl, rfl⟩ := h
    rcases apply_effect hs hrun with ⟨_, hsame⟩ | ⟨_, y, hy, he⟩
    · rwa [hsame]
    · exact named_written hs hy.linkable (he.mono fun _ _ _ he => he.toUpdated)
  | insertBlank id t =>
    obtain ⟨_, hinsert⟩ := Prod.mk.inj h
    rw [← hinsert]
    exact hs.insertBlank id t clock
  | remove key =>
    obtain ⟨_, herase⟩ := Prod.mk.inj h
    rw [← herase]
    exact hs.erase key
  | now | get | getAll | getUnhealth =>
    obtain ⟨_, hsame⟩ := Prod.mk.inj h
    rwa [← hsame]

theorem serves_named (hs : Named s) {c : Section} {r : c.Reply} (h : serves c s r s') :
    Named s' := by
  obtain ⟨clock, order, _, hrun⟩ := h
  exact Section.runBy_named hs hrun

end WayPoint.Manager
