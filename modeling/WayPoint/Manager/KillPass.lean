import WayPoint.Manager.Abstraction

/-! One pass of the kill loop with nothing in between. Every kill is a closure on the ownership, so
the pass kills the reported instances and their descendants, whatever order the map yields. -/
namespace WayPoint.Manager
open Foundations Program

variable {s s' : InnerService}

/-- Nothing but the kill request may differ, and only a missing one may be set. -/
def KilledOnly (d d' : InstanceDescription) : Prop :=
  d' = d ∨ d.killInstanceRequest = none ∧ ∃ k, d' = { d with killInstanceRequest := some k }

theorem KilledOnly.trans {a b c : InstanceDescription} (hab : KilledOnly a b)
    (hbc : KilledOnly b c) : KilledOnly a c := by
  rcases hab with rfl | ⟨hn, k, rfl⟩
  · exact hbc
  · rcases hbc with rfl | ⟨hn', _⟩
    · exact Or.inr ⟨hn, k, rfl⟩
    · cases hn'

/-- Values that only carry a kill request leave every other field as it was. -/
theorem Updated.eq_of_unset {clock : Clock} {v d d' : InstanceDescription} (h : Updated clock v d d')
    (hv : v = { instanceId := v.instanceId, killInstanceRequest := v.killInstanceRequest }) :
    d' = { d with killInstanceRequest := d'.killInstanceRequest } := by
  rw [hv] at h
  obtain ⟨h1, h2, h3, h4, h5, h6, h7, h8, h9, h10, h11⟩ := h
  rcases d with ⟨_, _, _, _, _, _, _, _, _, _, _, _⟩
  rcases d' with ⟨_, _, _, _, _, _, _, _, _, _, _, _⟩
  simp only [Replaced] at *
  simp only [InstanceDescription.mk.injEq]
  exact ⟨h3, h2, h1, trivial, h4, h7, h6, h5, h8, h9, h10, h11⟩

private theorem incoming_killOrder (x : InstanceId) (reason : KillReason) (current : TimestampMs)
    (y : String) : incoming x (killOrder (some x) reason current) y =
      { instanceId := (incoming x (killOrder (some x) reason current) y).instanceId
        killInstanceRequest :=
          (incoming x (killOrder (some x) reason current) y).killInstanceRequest } := by
  unfold incoming killOrder
  split
  · rfl
  · simp [InstanceDescription.childList]

private theorem newLink_killOrder (x : InstanceId) (reason : KillReason) (current : TimestampMs)
    (c p : String) : ¬ NewLink x (killOrder (some x) reason current) c p := by
  simp [NewLink, killOrder, InstanceDescription.childList]

theorem accepted_killOrder {x : InstanceId} {reason : KillReason} {current : TimestampMs} :
    Accepted s x (killOrder (some x) reason current) ↔ Alive s x.instanceId := by
  constructor
  · exact fun h => h.alive
  · intro h
    refine ⟨⟨h, ?_, ?_⟩, rfl, rfl, rfl⟩
    · simp [killOrder]
    · simp [killOrder, InstanceDescription.childList]

/-- What one kill of the pass does, whether it is carried out or refused. -/
structure KillStep (s : InnerService) (x : String) (s' : InnerService) : Prop where
  consistent : Consistent s'
  ownership : ∀ hs hs', Manager.ownership s' hs' = (Manager.ownership s hs).kill {x}
  changes : FiniteMap.Changes (fun _ => KilledOnly) s s'

theorem Effect.killedOnly {clock : Clock} {x : InstanceId} {reason : KillReason}
    {current : TimestampMs} {y : String} {d d' : InstanceDescription}
    (h : Effect clock x (killOrder (some x) reason current) y d d')
    (hx : y = x.instanceId → d.killInstanceRequest = none) : KilledOnly d d' := by
  have heq := h.toUpdated.eq_of_unset (incoming_killOrder x reason current y)
  rw [heq]
  rcases h.kill with hk | ⟨_, hn, t, _, he⟩
  · by_cases hy : y = x.instanceId
    · subst hy
      rw [incoming_self] at hk
      obtain ⟨t, _, he⟩ := hk
      rw [he]
      exact Or.inr ⟨hx rfl, _, rfl⟩
    · rw [incoming_other hy] at hk
      rw [show d'.killInstanceRequest = d.killInstanceRequest from hk]
      exact Or.inl rfl
  · rw [he]
    exact Or.inr ⟨hn, _, rfl⟩

private theorem killOrder_step (hs : Consistent s) {x : InstanceId} {reason : KillReason}
    {current : TimestampMs} {clock later : Clock} {r : Except Status Bool}
    (hx : x.instanceId ∈ s)
    (h : (applyToInstanceDescription (killOrder (some x) reason current)).exec s clock =
      (r, s', later)) : KillStep s x.instanceId s' := by
  obtain ⟨d, hd⟩ := Finmap.mem_iff.mp hx
  by_cases halive : Alive s x.instanceId
  · have hacc : Accepted s x (killOrder (some x) reason current) := accepted_killOrder.mpr halive
    obtain ⟨u, last, hrun, ha⟩ := apply_accepted hs hacc clock
    rw [h] at hrun
    cases hrun
    refine ⟨ha.consistent hs hacc.toAccepts, fun hs hs' => ?_, ?_⟩
    · rw [ha.ownership_eq hs hacc.toAccepts hs', Ownership.adopt_empty _ _ (newLink_killOrder _ _ _)]
      rfl
    · refine ⟨fun {k v} hv => ?_, ha.effect.absent⟩
      obtain ⟨v', hv', he⟩ := ha.effect.present hv
      refine ⟨v', hv', he.killedOnly fun hk => ?_⟩
      obtain ⟨d, hd, hn⟩ := halive
      rw [hk, hd] at hv
      cases hv
      exact hn
  · have hrefused : ∀ y, ¬ Accepted s y (killOrder (some x) reason current) := fun y hy => by
      obtain rfl : x = y := Option.some.inj hy.instanceId
      exact halive hy.alive
    obtain ⟨r', _, hrun⟩ := apply_refused hs.named hrefused clock
    rw [h] at hrun
    cases hrun
    refine ⟨hs, fun hs _ => (Ownership.kill_dead _ ?_).symm,
      .refl (fun _ _ => (Or.inl rfl : KilledOnly _ _)) s⟩
    rintro _ ⟨rfl, _⟩
    refine (mem_dead_iff hd).mpr ?_
    rw [Option.isSome_iff_ne_none]
    exact fun hn => halive ⟨d, hd, hn⟩

/-- The loop kills what it was given, one closure after the other. -/
theorem killAll_run {orders : List InstanceDescription} {ids : List String} {a : Unit}
    (ho : List.Forall₂ (fun order x => ∃ reason current,
      order = killOrder (some ⟨x⟩) reason current) orders ids)
    (hs : Consistent s) (hids : ∀ x ∈ ids, x ∈ s) (h : Runs serves s (killAll orders) a s') :
    Consistent s' ∧ FiniteMap.Changes (fun _ => KilledOnly) s s' ∧
      ∀ hs hs', ownership s' hs' = (ownership s hs).kill {x | x ∈ ids} := by
  induction ho generalizing s with
  | nil =>
    simp only [killAll, pure_eq, runs_done_iff] at h
    obtain ⟨_, rfl⟩ := h
    exact ⟨hs, .refl (fun _ _ => (Or.inl rfl : KilledOnly _ _)) _,
      fun _ _ => (Ownership.kill_dead _ (by simp)).symm⟩
  | @cons order x orders ids hx rest ih =>
    obtain ⟨reason, current, rfl⟩ := hx
    simp only [killAll, locked, perform_bind, runs_call_iff] at h
    obtain ⟨r, u, hserve, hrest⟩ := h
    obtain ⟨clock, later, hrun⟩ := serves_apply_iff.mp hserve
    have hstep := killOrder_step (x := ⟨x⟩) hs (hids x List.mem_cons_self) hrun
    obtain ⟨hc, hch, ho⟩ := ih hstep.consistent
      (fun y hy => (hstep.changes.mem_iff y).mpr (hids y (List.mem_cons_of_mem x hy))) hrest
    have htrans : ∀ (_ : String) a b c, KilledOnly a b → KilledOnly b c → KilledOnly a c :=
      fun _ _ _ _ => KilledOnly.trans
    refine ⟨hc, hstep.changes.trans htrans hch, fun hs hs' => ?_⟩
    rw [ho hstep.consistent hs', hstep.ownership hs hstep.consistent, Ownership.kill_kill]
    congr 1
    ext y
    simp

/-- The live instances the health verdict condemns at a time. -/
def condemned (s : InnerService) (t : TimestampMs) : Set String :=
  {x | ∃ d, s.lookup x = some d ∧ d.killInstanceRequest = none ∧ (unhealthInstance d t).isSome}

instance (s : InnerService) (t : TimestampMs) (x : String) : Decidable (x ∈ condemned s t) :=
  inferInstanceAs (Decidable (∃ d ∈ s.lookup x, d.killInstanceRequest = none ∧
    (unhealthInstance d t).isSome))

private theorem orders_forall₂ (t : TimestampMs) (entries : Entries)
    (hkey : ∀ e ∈ entries, e.2.instanceId = some ⟨e.1⟩) :
    List.Forall₂ (fun order x => ∃ reason current, order = killOrder (some ⟨x⟩) reason current)
      (entries.filterMap (fun e =>
        (unhealthInstance e.2 t).map (fun reason => killOrder e.2.instanceId reason t)))
      (entries.filterMap (fun e => (unhealthInstance e.2 t).map (fun _ => e.1))) := by
  induction entries with
  | nil => exact .nil
  | cons e rest ih =>
    have hrest := ih (fun e' he' => hkey e' (List.mem_cons_of_mem e he'))
    cases hv : unhealthInstance e.2 t with
    | none => simpa only [List.filterMap_cons, hv, Option.map_none] using hrest
    | some reason =>
      simp only [List.filterMap_cons, hv, Option.map_some, hkey e List.mem_cons_self]
      exact .cons ⟨reason, t, rfl⟩ hrest

/-- The snapshot lists one kill order for each condemned instance. -/
theorem getUnhealthInstances_orders (hs : WellLinked s) (t : TimestampMs) {entries : Entries}
    (ho : FiniteMap.Enumerates entries s) : ∃ ids,
      List.Forall₂ (fun order x => ∃ reason current, order = killOrder (some ⟨x⟩) reason current)
        (getUnhealthInstances t entries) ids ∧ {x | x ∈ ids} = condemned s t := by
  refine ⟨_, orders_forall₂ t _ (fun e he => ?_), ?_⟩
  · exact hs.key ((ho.mem_iff e).mp (List.mem_of_mem_filter he))
  · ext x
    simp only [Set.mem_ofPred_eq, List.mem_filterMap, List.mem_filter, ho.mem_iff,
      Option.map_eq_some_iff, Option.isNone_iff_eq_none, condemned, Option.isSome_iff_exists]
    constructor
    · intro h
      obtain ⟨⟨k, d⟩, ⟨hd, hn⟩, reason, hv, rfl⟩ := h
      exact ⟨d, hd, hn, reason, hv⟩
    · intro h
      obtain ⟨d, hd, hn, reason, hv⟩ := h
      exact ⟨⟨x, d⟩, ⟨hd, hn⟩, reason, hv, rfl⟩

theorem killUnhealthInstancesAt_run (hs : Consistent s) {t : TimestampMs} {a : Unit}
    (h : Runs serves s (killUnhealthInstancesAt t) a s') :
    Consistent s' ∧ FiniteMap.Changes (fun _ => KilledOnly) s s' ∧
      ∀ hs hs', ownership s' hs' = (ownership s hs).kill (condemned s t) := by
  simp only [killUnhealthInstancesAt, locked, perform_bind, runs_call_iff] at h
  obtain ⟨orders, u, ⟨clock, entries, ho, hserve⟩, hrest⟩ := h
  obtain ⟨rfl, rfl⟩ : getUnhealthInstances t entries = orders ∧ s = u := by
    simpa [Section.run, Section.runBy, getUnhealthInstances] using hserve
  obtain ⟨ids, hids, hset⟩ := getUnhealthInstances_orders hs.toWellLinked t ho
  rw [← hset]
  refine killAll_run hids hs (fun x hx => ?_) hrest
  have hx' : x ∈ {x | x ∈ ids} := hx
  rw [hset] at hx'
  obtain ⟨d, hd, _⟩ := hx'
  exact Finmap.mem_of_lookup_eq_some hd

theorem dead_killPass (hs : Consistent s) {t : TimestampMs} {a : Unit}
    (h : Runs serves s (killUnhealthInstancesAt t) a s') :
    dead s' = dead s ∪ reach (HasChild s) (condemned s t) := by
  obtain ⟨hs', _, ho⟩ := killUnhealthInstancesAt_run hs h
  have hin : condemned s t ∩ {x | x ∈ s} = condemned s t :=
    Set.inter_eq_left.mpr fun x ⟨d, hd, _⟩ => Finmap.mem_of_lookup_eq_some hd
  calc dead s' = ((ownership s hs).kill (condemned s t)).dead := congrArg Ownership.dead (ho hs hs')
    _ = dead s ∪ reach (ownership s hs).owns (condemned s t ∩ {x | x ∈ s}) := rfl
    _ = dead s ∪ reach (HasChild s) (condemned s t) := by rw [hin, owns_ownership]

theorem KilledOnly.eq_of_same_life {d d' : InstanceDescription} (h : KilledOnly d d')
    (hlife : d'.killInstanceRequest.isSome → d.killInstanceRequest.isSome) : d' = d := by
  rcases h with rfl | ⟨hn, k, rfl⟩
  · rfl
  · rw [hn] at hlife
    exact absurd (hlife rfl) (by simp)

/-- A pass kills what is condemned together with its descendants and nothing else, in whatever
order the map is iterated, and leaves no condemned instance alive. -/
theorem killPass_complete_precise (h : Reachable s) (t : TimestampMs) :
    (∃ s', Runs serves s (killUnhealthInstancesAt t) () s') ∧
    ∀ s', Runs serves s (killUnhealthInstancesAt t) () s' →
      dead s' = dead s ∪ reach (HasChild s) (condemned s t) ∧
      condemned s' t = ∅ ∧
      (∀ x, x ∉ dead s' ∨ x ∈ dead s → s'.lookup x = s.lookup x) ∧
      (∀ x d, s.lookup x = some d → ∃ kill,
        s'.lookup x = some { d with killInstanceRequest := kill }) ∧
      ∀ s'', Runs serves s (killUnhealthInstancesAt t) () s'' → dead s'' = dead s' := by
  have hs := h.consistent
  refine ⟨⟨_, runs_eval (serves_execute (Stream'.const t)) _ s⟩, fun s' hrun => ?_⟩
  obtain ⟨_, hch, _⟩ := killUnhealthInstancesAt_run hs hrun
  have hdead := dead_killPass hs hrun
  have hsame : ∀ x, x ∉ dead s' ∨ x ∈ dead s → s'.lookup x = s.lookup x := by
    intro x hx
    cases hl : s.lookup x with
    | none => exact hch.absent hl
    | some d =>
      obtain ⟨d', hd', hk⟩ := hch.present hl
      rw [hd', hk.eq_of_same_life]
      rw [← mem_dead_iff hl, ← mem_dead_iff hd']
      exact fun hx' => hx.resolve_left (not_not.mpr hx')
  refine ⟨hdead, ?_, hsame, fun x d hd => ?_, fun s'' hrun' => ?_⟩
  · rw [Set.eq_empty_iff_forall_notMem]
    intro x hx
    obtain ⟨d, hd, hn, hv⟩ := hx
    have hnot : x ∉ dead s' := Alive.notMem_dead ⟨d, hd, hn⟩
    have hold := (hsame x (Or.inl hnot)).symm.trans hd
    rw [hdead] at hnot
    exact hnot (Or.inr (subset_reach _ _ ⟨d, hold, hn, hv⟩))
  · obtain ⟨d', hd', hk⟩ := hch.present hd
    rcases hk with rfl | ⟨_, k, rfl⟩
    · exact ⟨_, hd'⟩
    · exact ⟨some k, hd'⟩
  · rw [dead_killPass hs hrun', hdead]

/-- An agent that never sends a heartbeat, and the machine it owns, which needs none. -/
def silentAgent : List (TimestampMs × Rpc) :=
  [(⟨1000⟩, .tryAddInstance
      { instanceId := some ⟨"agent"⟩, instanceType := some InstanceType.agent.toI32 }),
    (⟨2000⟩, .tryAddInstance
      { instanceId := some ⟨"machine"⟩, instanceType := some InstanceType.virtualMachine.toI32,
        parent := some { instanceId := some ⟨"agent"⟩ } })]

theorem killPass_complete_precise_silentAgent :
    "machine" ∈ dead ((killUnhealthInstancesAt ⟨70000⟩).eval (Section.execute (Stream'.const ⟨70000⟩))
      (replay ∅ silentAgent)).2 := by
  have hcondemned : "agent" ∈ condemned (replay ∅ silentAgent) ⟨70000⟩ := by decide +kernel
  have hchild : HasChild (replay ∅ silentAgent) "agent" "machine" := by decide +kernel
  rw [((killPass_complete_precise (Reachable.empty.replay silentAgent) ⟨70000⟩).2 _
    (runs_eval (serves_execute (Stream'.const ⟨70000⟩)) _ _)).1]
  exact Or.inr ⟨"agent", hcondemned, .single hchild⟩

end WayPoint.Manager
