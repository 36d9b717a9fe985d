import WayPoint.Manager.KillCascade

/-! Exactly which updates are accepted, and exactly what each accepted one makes of every
description in the store. -/
namespace WayPoint.Manager
open Foundations

variable {s s' : InnerService} {clock later : Clock} {x : InstanceId} {request : InstanceDescription}

/-- The instances below `x` that were alive before the update, when it is a kill. -/
def killedBelow (s s' : InnerService) (x : InstanceId) (request : InstanceDescription) : Set String :=
  {y | request.killInstanceRequest.isSome ∧ y ∈ orphans s s' x.instanceId}

/-- What becomes of the description at `y`: the values written there, each with a server timestamp,
and a kill where the request's own or the cascade's arrives. -/
structure Exactly (clock : Clock) (x : InstanceId) (request : InstanceDescription)
    (below : Set String) (y : String) (d d' : InstanceDescription) : Prop
    extends Updated clock (incoming x request y) d d' where
  own : y = x.instanceId →
    Replaced clock request.killInstanceRequest d.killInstanceRequest d'.killInstanceRequest
  orphan : y ∈ below → ∃ t ∈ clock,
    d'.killInstanceRequest = some ⟨some t, KillReason.parentDead.toI32⟩
  spared : y ≠ x.instanceId → y ∉ below → d'.killInstanceRequest = d.killInstanceRequest

/-- The kill request is not among the fields an update writes or keeps. -/
theorem Updated.with_kill {v d d' : InstanceDescription} (h : Updated clock v d d')
    (k : Option KillInstanceRequest) : Updated clock v d { d' with killInstanceRequest := k } :=
  ⟨h.1, h.2, h.3, h.4, h.5, h.6, h.7, h.8, h.9, h.10, h.11⟩

theorem LinksWritten.kill_other {y : String} {d d' : InstanceDescription} (hy : y ≠ x.instanceId)
    (h : LinksWritten clock x request y d d') : d'.killInstanceRequest = d.killInstanceRequest := by
  have hk := h.2
  rw [incoming_other hy] at hk
  exact hk

theorem Cascades.childList {below : Set String} {y : String} {d d' : InstanceDescription}
    (h : Cascades clock below y d d') : d'.childList = d.childList := by
  by_cases hy : y ∈ below
  · obtain ⟨t, _, rfl⟩ := h.1 hy
    rfl
  · rw [h.2 hy]

/-- A kill: what the fields and links of the request left, and then the cascade. -/
private theorem exactly_of_cascade {linked : InnerService}
    (hwritten : FiniteMap.Changes (LinksWritten clock x request) s linked)
    (hcascade : FiniteMap.Changes (Cascades clock (orphans s linked x.instanceId)) linked s') :
    FiniteMap.Changes (Exactly clock x request (orphans s linked x.instanceId)) s s' := by
  refine hwritten.trans (fun y a b c hab hbc => ?_) hcascade
  by_cases hy : y ∈ orphans s linked x.instanceId
  · obtain ⟨t, ht, rfl⟩ := hbc.1 hy
    exact ⟨hab.1.with_kill _, fun heq => absurd heq hy.1, fun _ => ⟨t, ht, rfl⟩, fun _ hnot => absurd hy hnot⟩
  · rw [hbc.2 hy]
    refine ⟨hab.1, fun heq => ?_, fun hmem => absurd hmem hy, fun hne _ => hab.kill_other hne⟩
    subst heq
    have hown := hab.2
    rwa [incoming_self] at hown

/-- No kill: every description keeps the one it has. -/
private theorem exactly_of_effect (hk : request.killInstanceRequest = none) {below : Set String}
    (hbelow : ∀ y, y ∉ below) (h : FiniteMap.Changes (Effect clock x request) s s') :
    FiniteMap.Changes (Exactly clock x request below) s s' := by
  refine h.mono fun y a b hab => ?_
  rcases hab.kill with hkept | ⟨hsome, _⟩
  · refine ⟨hab.toUpdated, fun heq => ?_, fun hmem => absurd hmem (hbelow y), fun hne _ => ?_⟩
    · subst heq
      rwa [incoming_self] at hkept
    · rw [incoming_other hne] at hkept
      exact hkept
  · rw [hk] at hsome
    cases hsome

theorem Accepted.exactly (hs : Consistent s) (ha : Accepted s x request) (clock : Clock) :
    ∃ s' later, (applyToInstanceDescription request).exec s clock = (.ok true, s', later) ∧
      FiniteMap.Changes (Exactly clock x request (killedBelow s s' x request)) s s' := by
  cases hk : request.killInstanceRequest with
  | none =>
    obtain ⟨s', later, hrun, happlied⟩ := apply_accepted hs ha clock
    refine ⟨s', later, hrun, exactly_of_effect hk (fun y hy => ?_) happlied.effect⟩
    rw [killedBelow, hk] at hy
    exact absurd hy.1 (by simp)
  | some kill =>
    have hsome : request.killInstanceRequest.isSome := by rw [hk]; rfl
    obtain ⟨linked, _, s', later, _, hwritten, _, _, hrun, hcascade⟩ := ha.cascade hs hsome clock
    have hchild : HasChild s' = HasChild linked :=
      hasChild_of_changes (fun _ _ _ hd => hd.childList) hcascade
    have hbelow : killedBelow s s' x request = orphans s linked x.instanceId := by
      simp only [killedBelow, orphans, hchild, hsome, true_and]
      rfl
    refine ⟨s', later, hrun, ?_⟩
    rw [hbelow]
    exact exactly_of_cascade hwritten hcascade

/-- An update is accepted exactly when its links are allowed, and then does exactly what it says. -/
theorem update_exact (h : Reachable s) (hx : request.instanceId = some x)
    (hcreated : request.createdTimestampMs = none) (htype : request.instanceType = none) (clock : Clock) :
    (((applyToInstanceDescription request).exec s clock).1 = .ok true ↔ Accepts s x request) ∧
    ∀ s' later, (applyToInstanceDescription request).exec s clock = (.ok true, s', later) →
      FiniteMap.Changes (Exactly clock x request (killedBelow s s' x request)) s s' ∧
      ∀ p c, HasChild s' p c ↔ HasChild s p c ∨ NewLink x request c p := by
  have hs := h.consistent
  have haccepted : Accepts s x request → Accepted s x request := fun ha => ⟨ha, hx, hcreated, htype⟩
  have hiff : ((applyToInstanceDescription request).exec s clock).1 = .ok true ↔ Accepts s x request := by
    constructor
    · intro hok
      obtain ⟨_, y, ha, _⟩ := (apply_cases hs request clock rfl).resolve_left (fun hne => hne.1 hok)
      obtain rfl : y = x := Option.some.inj (ha.instanceId.symm.trans hx)
      exact ha.toAccepts
    · intro ha
      obtain ⟨s', later, hrun, _⟩ := (haccepted ha).exactly hs clock
      rw [hrun]
  refine ⟨hiff, fun s' later hrun => ?_⟩
  have ha : Accepts s x request := hiff.mp (by rw [hrun])
  obtain ⟨u, last, hrun', hexact⟩ := (haccepted ha).exactly hs clock
  rw [hrun] at hrun'
  cases hrun'
  exact ⟨hexact, hasChild_written (hexact.mono fun _ _ _ he => he.toUpdated) ha⟩

/-- An agent and a browser that have no parents. -/
def agentAndBrowser : List (TimestampMs × Rpc) :=
  [(⟨1000⟩, .tryAddInstance
      { instanceId := some ⟨"agent"⟩, instanceType := some InstanceType.agent.toI32 }),
    (⟨2000⟩, .tryAddInstance
      { instanceId := some ⟨"chrome"⟩, instanceType := some InstanceType.chromeBrowser.toI32 })]

/-- The browser becomes the agent's child and its parent, twice its child, and the agent is killed. -/
def adoptAndKill : InstanceDescription :=
  { instanceId := some ⟨"agent"⟩, parent := some { instanceId := some ⟨"chrome"⟩ }
    children := some ⟨[{ instanceId := some ⟨"chrome"⟩ }, { instanceId := some ⟨"chrome"⟩ }]⟩
    killInstanceRequest := some { killReason := KillReason.killed.toI32 } }

theorem update_exact_adoptAndKill :
    Accepts (replay ∅ agentAndBrowser) ⟨"agent"⟩ adoptAndKill :=
  (update_exact (Reachable.empty.replay agentAndBrowser) rfl rfl rfl (Stream'.const ⟨4000⟩)).1.mp
    (by decide +kernel)

end WayPoint.Manager
