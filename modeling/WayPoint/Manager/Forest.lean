import WayPoint.Foundations.Acyclic
import WayPoint.Manager.Carried

/-! Whether parents form a forest. A request may link its instance in both directions at once, and
only links from an instance to itself are refused. -/
namespace WayPoint.Manager
open Foundations Relation

variable {s s' base : InnerService} {clock : Clock} {x : InstanceId} {request : InstanceDescription}

/-- A whole request, the stores around it and its answer. -/
abbrev ServedRpc := Served (fun _ : Rpc => Answer) InnerService

/-- The instances a request asks to kill. -/
def Rpc.kills (rpc : Rpc) : Set String :=
  {x | ∃ request ∈ rpc.update, request.instanceId = some ⟨x⟩ ∧ request.killInstanceRequest.isSome}

/-- Nobody above a killed instance dies with it. -/
def SparesAncestors (e : ServedRpc) : Prop :=
  ∀ x ∈ e.call.kills, ∀ a, TransGen (HasParent e.after) x a → a ∈ dead e.after → a ∈ dead e.before

def KeepsForest (e : ServedRpc) : Prop := Acyclic (HasParent e.after) ∧ SparesAncestors e

/-- The new parent is not below the instance, no new child is above it, and no new child is the
new parent or above the new parent. -/
def LoopFree (e : ServedRpc) : Prop :=
  ∀ base x request, e.call.Carries e.before base x request →
    NoReturn (HasParent e.before) x.instanceId
      {p | request.parent.bind Relationship.target = some p}
      {c | some c ∈ request.childList.map Relationship.target}

theorem Rpc.Base.hasParent {rpc : Rpc} (h : rpc.Base s base) : HasParent base = HasParent s := by
  cases h with
  | registering t now _ _ fresh =>
    funext c p
    exact propext (hasParent_blank _ _ fresh c p)
  | found => rfl

theorem Rpc.Base.dead {rpc : Rpc} (h : rpc.Base s base) : Manager.dead base = Manager.dead s := by
  cases h with
  | registering t now _ _ fresh => exact dead_blank _ _ fresh
  | found => rfl

/-- The update a request is carried out with, and its instance, are fixed. -/
theorem Rpc.Carries.unique {rpc : Rpc} {base' : InnerService} {x' : InstanceId}
    {request' : InstanceDescription} (h : rpc.Carries s base x request)
    (h' : rpc.Carries s base' x' request') : x' = x ∧ request' = request := by
  obtain rfl : request' = request := Option.some.inj (h'.update.symm.trans h.update)
  exact ⟨Option.some.inj (h'.accepted.instanceId.symm.trans h.accepted.instanceId), rfl⟩

/-- The links an accepted request adds are links of one point, the instance. -/
theorem Applied.acyclic_iff (h : Applied clock x request s s') : Acyclic (HasParent s') ↔
    Acyclic (HasParent s) ∧ NoReturn (HasParent s) x.instanceId
      {p | request.parent.bind Relationship.target = some p}
      {c | some c ∈ request.childList.map Relationship.target} := by
  rw [← acyclic_hub_iff]
  have hlinks : HasParent s' = fun c p => HasParent s c p ∨ hub x.instanceId
      {p | request.parent.bind Relationship.target = some p}
      {c | some c ∈ request.childList.map Relationship.target} c p :=
    funext fun c => funext fun p => propext (h.hasParent c p)
  rw [hlinks]

private theorem loopFree_iff_of_carries {rpc : Rpc} (h : rpc.Carries s base x request) (answer : Answer)
    (s' : InnerService) : LoopFree ⟨rpc, s, answer, s'⟩ ↔
      NoReturn (HasParent s) x.instanceId
        {p | request.parent.bind Relationship.target = some p}
        {c | some c ∈ request.childList.map Relationship.target} := by
  constructor
  · exact fun hfree => hfree base x request h
  · intro hreturn base' x' request' h'
    obtain ⟨rfl, rfl⟩ := h.unique h'
    exact hreturn

/-- What a kill reaches in a forest lies below the killed instance, so nothing above it is new. -/
theorem Applied.sparesAncestors {rpc : Rpc} (hs' : Consistent s')
    (hc : rpc.Carries s base x request) (h : Applied clock x request base s')
    (hforest : Acyclic (HasParent s')) (answer : Answer) :
    SparesAncestors ⟨rpc, s, answer, s'⟩ := by
  intro y hy a hya ha
  obtain ⟨update, hupdate, hid, hkill⟩ := hy
  obtain rfl : request = update := Option.some.inj (hc.update.symm.trans hupdate)
  have hxy : x = ⟨y⟩ := Option.some.inj (hc.accepted.instanceId.symm.trans hid)
  simp only [h.dead, hc.starts.dead, killed, if_pos hkill] at ha
  rcases ha with hold | ⟨z, hz, hza⟩
  · exact hold
  · obtain rfl : z = x.instanceId := hz
    subst hxy
    have hup : ReflTransGen (HasParent s') a y := by
      have hdown : HasChild s' = Function.swap (HasParent s') :=
        funext fun p => funext fun c => propext (hs'.agree c p).symm
      rw [hdown, reflTransGen_swap] at hza
      exact hza
    exact absurd (hya.trans_left hup) (hforest y)

/-- A request keeps a forest exactly if the links it adds close no loop. -/
private theorem keepsForest_iff {rpc : Rpc} {answer : Answer} (hs : Consistent s)
    (hforest : Acyclic (HasParent s)) (h : whole rpc s answer s') :
    KeepsForest ⟨rpc, s, answer, s'⟩ ↔ LoopFree ⟨rpc, s, answer, s'⟩ := by
  cases rpc_outcome hs h with
  | refused refuses _ same =>
    subst same
    constructor
    · exact fun _ base x request hc => absurd hc (refuses base x request)
    · exact fun _ => ⟨hforest, fun _ _ _ _ ha => ha⟩
  | carried hc ha _ =>
    have hiff := ha.acyclic_iff
    rw [hc.starts.hasParent, ← loopFree_iff_of_carries hc answer s'] at hiff
    constructor
    · exact fun hkeeps => (hiff.mp hkeeps.1).2
    · intro hfree
      have hafter := hiff.mpr ⟨hforest, hfree⟩
      exact ⟨hafter, ha.sparesAncestors (whole_consistent hs h) hc hafter answer⟩

private theorem acyclic_empty : Acyclic (HasParent ∅) := by
  intro a hcycle
  obtain ⟨b, ⟨d, hd, _⟩, _⟩ := TransGen.head'_iff.mp hcycle
  simp at hd

/-- In every run ownership stays a forest, and kills spare ancestors, exactly as long as no request
that is carried out closes a loop. -/
theorem forest_iff_loopFree {past : List ServedRpc} (h : Trace whole ∅ past s) :
    (∀ e ∈ past, KeepsForest e) ↔ ∀ e ∈ past, LoopFree e :=
  h.forall_iff empty_consistent acyclic_empty (fun _ _ _ _ hs hserve => whole_consistent hs hserve)
    (fun _ _ _ _ hs hforest hserve => keepsForest_iff hs hforest hserve) (fun _ hkeeps => hkeeps.1)

def registers (id : String) (t : InstanceType) : Rpc :=
  .tryAddInstance { instanceId := some ⟨id⟩, instanceType := some t.toI32 }

/-- A backend registers, then an agent under it. -/
def backendAndAgent : List Rpc :=
  [registers "backend" .browserBackend,
    .tryAddInstance
      { instanceId := some ⟨"agent"⟩, instanceType := some InstanceType.agent.toI32,
        parent := some { instanceId := some ⟨"backend"⟩ } }]

theorem forest_iff_loopFree_backendAndAgent :
    Acyclic (HasParent (session ⟨1000⟩ backendAndAgent).2) := by
  refine ((forest_iff_loopFree (trace_session ⟨1000⟩ backendAndAgent)).mpr (fun e he => ?_)
    _ List.mem_cons_self).1
  have hroots : ∀ e ∈ (session ⟨1000⟩ backendAndAgent).1, ∀ k d, e.before.lookup k = some d →
      d.parent = none := by decide +kernel
  have hchildren : ∀ e ∈ (session ⟨1000⟩ backendAndAgent).1, ∀ request ∈ e.call.update,
      request.childList = [] := by decide +kernel
  have hself : ∀ e ∈ (session ⟨1000⟩ backendAndAgent).1, ∀ request ∈ e.call.update,
      request.parent.bind Relationship.target ≠ request.instanceId.map InstanceId.instanceId := by
    decide +kernel
  intro base x request hc
  refine ⟨fun p hp hpath => ?_, fun c hmem => ?_, fun p _ c hmem => ?_⟩
  · -- nobody has a parent when the request comes in, so the path is empty
    rcases ReflTransGen.cases_head hpath with rfl | ⟨q, ⟨d, hd, r, hr, _⟩, _⟩
    · refine hself e he request hc.update ?_
      rw [hc.accepted.instanceId]
      exact hp
    · rw [hroots e he p d hd] at hr
      cases hr
  · rw [Set.mem_ofPred_eq, hchildren e he request hc.update] at hmem
    cases hmem
  · rw [Set.mem_ofPred_eq, hchildren e he request hc.update] at hmem
    cases hmem

/-- The backend and the agent each name the other as parent, then the backend is killed. -/
def mutualParents : List Rpc :=
  [registers "backend" .browserBackend, registers "agent" .agent,
    .tryUpdateInstanceDescription
      { instanceId := some ⟨"agent"⟩, parent := some { instanceId := some ⟨"backend"⟩ } },
    .tryUpdateInstanceDescription
      { instanceId := some ⟨"backend"⟩, parent := some { instanceId := some ⟨"agent"⟩ } },
    .tryUpdateInstanceDescription { instanceId := some ⟨"backend"⟩, killInstanceRequest := some {} }]

/-- All five requests are carried out: the backend is its own grandparent, and its kill kills the
agent above it. -/
theorem not_forest_mutualParents :
    Trace whole ∅ (session ⟨1000⟩ mutualParents).1 (session ⟨1000⟩ mutualParents).2 ∧
      TransGen (HasParent (session ⟨1000⟩ mutualParents).2) "backend" "backend" ∧
      ∃ e ∈ (session ⟨1000⟩ mutualParents).1, ¬ SparesAncestors e := by
  have hup : HasParent (session ⟨1000⟩ mutualParents).2 "backend" "agent" := by decide +kernel
  have hdown : HasParent (session ⟨1000⟩ mutualParents).2 "agent" "backend" := by decide +kernel
  refine ⟨trace_session _ _, .tail (.single hup) hdown,
    (session ⟨1000⟩ mutualParents).1.head (by decide +kernel), List.head_mem _, fun hspares => ?_⟩
  have hbefore : "agent" ∉ dead ((session ⟨1000⟩ mutualParents).1.head (by decide +kernel)).before := by
    decide +kernel
  have hafter : "agent" ∈ dead (session ⟨1000⟩ mutualParents).2 := by decide +kernel
  exact hbefore (hspares "backend" ⟨_, rfl, rfl, rfl⟩ "agent" (.single hup) hafter)

end WayPoint.Manager
