import WayPoint.Manager.Carried

/-! What the cascade of an accepted kill does to the store that the fields and links of the request
left: it kills the living descendants of the killed instance, and nothing else. -/
namespace WayPoint.Manager
open Foundations SetTimestamp

variable {s s' linked : InnerService} {clock later : Clock} {x : InstanceId}
  {request : InstanceDescription}

/-- The instances that were alive in `s` and that children lists of `linked` lead to from `root`. -/
def orphans (s linked : InnerService) (root : String) : Set String :=
  {y | y ≠ root ∧ Alive s y ∧ Relation.ReflTransGen (HasChild linked) root y}

/-- Orphans are killed because their parent is dead, all others stay as they are. -/
def Cascades (clock : Clock) (below : Set String) (y : String) (d d' : InstanceDescription) : Prop :=
  (y ∈ below → ∃ t ∈ clock,
    d' = { d with killInstanceRequest := some ⟨some t, KillReason.parentDead.toI32⟩ }) ∧
  (y ∉ below → d' = d)

private theorem alive_or_dead {y : String} (hy : y ∈ s) : Alive s y ∨ y ∈ dead s := by
  obtain ⟨d, hd⟩ := Finmap.mem_iff.mp hy
  cases hk : d.killInstanceRequest with
  | none => exact Or.inl ⟨d, hd, hk⟩
  | some k => exact Or.inr ⟨d, hd, by rw [hk]; rfl⟩

/-- The newly dead are told apart from the old ones by the store the request found. -/
private theorem mem_orphans_iff (hmem : ∀ y, y ∈ linked ↔ y ∈ s)
    (hlinked : dead linked = insert x.instanceId (dead s)) {y : String} (hy : y ∈ linked) :
    y ∈ orphans s linked x.instanceId ↔
      y ∉ dead linked ∧ y ∈ reach (HasChild linked) {x.instanceId} := by
  rw [hlinked, Set.mem_insert_iff, not_or]
  constructor
  · intro h
    obtain ⟨hne, halive, hpath⟩ := h
    exact ⟨⟨hne, halive.notMem_dead⟩, x.instanceId, rfl, hpath⟩
  · intro h
    obtain ⟨⟨hne, hdead⟩, root, hroot, hpath⟩ := h
    obtain rfl : root = x.instanceId := hroot
    exact ⟨hne, (alive_or_dead ((hmem y).mp hy)).resolve_right hdead, hpath⟩

/-- Which descriptions a cascade changed is seen from who is dead afterwards. -/
private theorem cascades_of_orphaned {below : Set String} (h : FiniteMap.Changes (fun _ => Orphaned clock) linked s')
    (hbelow : ∀ y ∈ linked, y ∈ below ↔ y ∉ dead linked ∧ y ∈ dead s') :
    FiniteMap.Changes (Cascades clock below) linked s' := by
  refine ⟨fun {y d} hd => ?_, h.absent⟩
  obtain ⟨d', hd', hcase⟩ := h.present hd
  refine ⟨d', hd', ?_⟩
  rw [Cascades, hbelow y (Finmap.mem_of_lookup_eq_some hd), mem_dead_iff hd, mem_dead_iff hd']
  rcases hcase with rfl | ⟨hnone, t, ht, rfl⟩
  · exact ⟨fun hdead => absurd hdead.2 hdead.1, fun _ => rfl⟩
  · refine ⟨fun _ => ⟨t, ht, rfl⟩, fun hnot => absurd ⟨?_, rfl⟩ hnot⟩
    rw [hnone]
    simp

/-- The run of an accepted kill: the fields and links first, then a cascade that ends. -/
theorem Accepted.cascade (hs : Consistent s) (ha : Accepted s x request)
    (hk : request.killInstanceRequest.isSome) (clock : Clock) : ∃ linked between s' later,
      (commitUpdate x request).exec s clock = (killDescendants x).exec linked between ∧
      FiniteMap.Changes (LinksWritten clock x request) s linked ∧
      dead linked = insert x.instanceId (dead s) ∧
      (killDescendants x).exec linked between = (.ok (), s', later) ∧
      (applyToInstanceDescription request).exec s clock = (.ok true, s', later) ∧
      FiniteMap.Changes (Cascades clock (orphans s linked x.instanceId)) linked s' := by
  obtain ⟨d, hd, _⟩ := id ha.alive
  obtain ⟨linked, between, hrun, hlater, hwritten⟩ := writeLinks_run hd ha.linkable clock
  have hdead : dead linked = insert x.instanceId (dead s) := by
    rw [dead_linksWritten (Finmap.mem_of_lookup_eq_some hd) hwritten, killed, if_pos hk, Set.union_singleton]
  have hupdated : FiniteMap.Changes (fun y => Updated clock (incoming x request y)) s linked :=
    hwritten.mono fun _ _ _ hw => hw.1
  obtain ⟨root, hroot, _⟩ := hwritten.present hd
  obtain ⟨s', later, hkill, horphaned, hreach, _⟩ := killDescendants_run
    (wellLinked_written hs.toWellLinked ha.toAccepts hupdated) hroot between
    (fun _ => pending_killed hs ha.toAccepts hwritten hroot)
  have hdead' := hreach (hdead ▸ Set.mem_insert _ _)
  refine ⟨linked, between, s', later, hrun, hwritten, hdead, hkill, ?_,
    cascades_of_orphaned (horphaned.mono fun _ _ _ ho => ?_) fun y hy => ?_⟩
  · rw [apply_of_accepted hs.named ha, exec_bind_ok _ _ (hrun.trans hkill)]
    rfl
  · rcases ho with rfl | ⟨hnone, t, ht, rfl⟩
    · exact Or.inl rfl
    · exact Or.inr ⟨hnone, t, hlater.mem ht, rfl⟩
  · rw [mem_orphans_iff hwritten.mem_iff hdead hy, hdead']
    exact and_congr_right fun hnot => (or_iff_right hnot).symm

private theorem dead_cascades {below : Set String} (hbelow : ∀ y ∈ below, y ∈ linked)
    (h : FiniteMap.Changes (Cascades clock below) linked s') : dead s' = dead linked ∪ below := by
  ext y
  rw [Set.mem_union]
  cases hy : linked.lookup y with
  | none =>
    have hnot : y ∉ below := fun hmem => absurd (hbelow y hmem) (Finmap.lookup_eq_none.mp hy)
    simp [dead, hy, h.absent hy, hnot]
  | some d =>
    obtain ⟨d', hd', hkilled, hsame⟩ := h.present hy
    rw [mem_dead_iff hd', mem_dead_iff hy]
    by_cases hmem : y ∈ below
    · obtain ⟨t, _, rfl⟩ := hkilled hmem
      simp [hmem]
    · rw [hsame hmem, or_iff_left hmem]

/-- Of the newly dead, the killed instance itself is the only one that was not an orphan. -/
private theorem newly_dead_iff (hx : Alive s x.instanceId) (hmem : ∀ y, y ∈ linked ↔ y ∈ s)
    (hlinked : dead linked = insert x.instanceId (dead s))
    (h : FiniteMap.Changes (Cascades clock (orphans s linked x.instanceId)) linked s') (y : String) :
    y ∈ dead s' ∧ y ∉ dead s ↔
      y = x.instanceId ∨ Alive s y ∧ Relation.ReflTransGen (HasChild linked) x.instanceId y := by
  have hbelow : ∀ z ∈ orphans s linked x.instanceId, z ∈ linked := by
    intro z hz
    obtain ⟨_, ⟨d, hd, _⟩, _⟩ := hz
    exact (hmem z).mpr (Finmap.mem_of_lookup_eq_some hd)
  rw [dead_cascades hbelow h, hlinked, Set.mem_union, Set.mem_insert_iff]
  constructor
  · intro hy
    obtain ⟨(rfl | hdead) | ⟨_, halive, hpath⟩, hnot⟩ := hy
    · exact Or.inl rfl
    · exact absurd hdead hnot
    · exact Or.inr ⟨halive, hpath⟩
  · intro hy
    rcases hy with rfl | ⟨halive, hpath⟩
    · exact ⟨Or.inl (Or.inl rfl), hx.notMem_dead⟩
    · refine ⟨?_, halive.notMem_dead⟩
      by_cases hne : y = x.instanceId
      · exact Or.inl (Or.inl hne)
      · exact Or.inr ⟨hne, halive, hpath⟩

/-- An accepted kill ends, and kills the instance and all of its living descendants. -/
theorem kill_cascade_exact (h : Reachable s) {kill : KillInstanceRequest}
    (hx : request.instanceId = some x) (hk : request.killInstanceRequest = some kill)
    (hrun : (applyToInstanceDescription request).exec s clock = (.ok true, s', later)) :
    ∃ linked between,
      (commitUpdate x request).exec s clock = (killDescendants x).exec linked between ∧
      FiniteMap.Changes (LinksWritten clock x request) s linked ∧
      (killDescendants x).exec linked between = (.ok (), s', later) ∧
      (∀ y, y ∈ dead s' ∧ y ∉ dead s ↔
        y = x.instanceId ∨ Alive s y ∧ Relation.ReflTransGen (HasChild linked) x.instanceId y) ∧
      FiniteMap.Changes (Cascades clock (orphans s linked x.instanceId)) linked s' ∧
      (∀ y d d', s.lookup y = some d → s'.lookup y = some d' → d.killInstanceRequest.isSome →
        d'.killInstanceRequest = d.killInstanceRequest) ∧
      ∃ d', s'.lookup x.instanceId = some d' ∧
        ∃ t ∈ clock, d'.killInstanceRequest = some (setTimestamp t kill) := by
  have hs := h.consistent
  obtain ha : Accepted s x request := by
    rcases apply_cases hs request clock hrun with ⟨hne, _⟩ | ⟨_, y, ha, _⟩
    · exact absurd rfl hne
    · obtain rfl : y = x := Option.some.inj (ha.instanceId.symm.trans hx)
      exact ha
  obtain ⟨linked, between, u, last, hcommit, hwritten, hdead, hkill, hrun', hcascade⟩ :=
    ha.cascade hs (by rw [hk]; rfl) clock
  rw [hrun] at hrun'
  cases hrun'
  refine ⟨linked, between, hcommit, hwritten, hkill,
    newly_dead_iff ha.alive hwritten.mem_iff hdead hcascade, hcascade, ?_, ?_⟩
  · intro y d d' hd hd' hdeadY
    obtain ⟨dl, hdl, hw⟩ := hwritten.present hd
    obtain ⟨e, he, _, hsame⟩ := hcascade.present hdl
    rw [hd'] at he
    cases he
    have hnot : ¬ Alive s y := fun halive => halive.notMem_dead ((mem_dead_iff hd).mpr hdeadY)
    have hne : y ≠ x.instanceId := fun heq => hnot (heq ▸ ha.alive)
    have hkept := hw.2
    rw [incoming_other hne] at hkept
    rw [hsame (fun horphan => hnot horphan.2.1)]
    exact hkept
  · obtain ⟨d, hd, _⟩ := id ha.alive
    obtain ⟨dl, hdl, hw⟩ := hwritten.present hd
    obtain ⟨e, he, _, hsame⟩ := hcascade.present hdl
    have hown := hw.2
    rw [incoming_self, hk] at hown
    refine ⟨e, he, ?_⟩
    rw [hsame (fun horphan => horphan.1 rfl)]
    exact hown

/-- Two agents that are each other's parent. -/
def parentCycle : List (TimestampMs × Rpc) :=
  [(⟨1000⟩, .tryAddInstance
      { instanceId := some ⟨"a"⟩, instanceType := some InstanceType.agent.toI32 }),
    (⟨2000⟩, .tryAddInstance
      { instanceId := some ⟨"b"⟩, instanceType := some InstanceType.agent.toI32,
        parent := some { instanceId := some ⟨"a"⟩ } }),
    (⟨3000⟩, .tryUpdateInstanceDescription
      { instanceId := some ⟨"a"⟩, parent := some { instanceId := some ⟨"b"⟩ } })]

def killA : InstanceDescription :=
  { instanceId := some ⟨"a"⟩, killInstanceRequest := some { killReason := KillReason.killed.toI32 } }

def killedCycle : Except Status Bool × InnerService × Clock :=
  (applyToInstanceDescription killA).exec (replay ∅ parentCycle) (Stream'.const ⟨4000⟩)

theorem kill_cascade_exact_parentCycle : ∃ linked, ∀ y,
    y ∈ dead killedCycle.2.1 ∧ y ∉ dead (replay ∅ parentCycle) ↔
      y = "a" ∨ Alive (replay ∅ parentCycle) y ∧ Relation.ReflTransGen (HasChild linked) "a" y := by
  have hrun : killedCycle = (.ok true, killedCycle.2) := Prod.ext (by decide +kernel) rfl
  obtain ⟨linked, _, _, _, _, hdead, _⟩ :=
    kill_cascade_exact (Reachable.empty.replay parentCycle) (x := ⟨"a"⟩) rfl rfl hrun
  exact ⟨linked, hdead⟩

end WayPoint.Manager
