import WayPoint.Manager.Cascade
import WayPoint.Manager.Fields

/-! The complete effect of `apply_to_instance_description`: what each of its phases writes, and
one statement of everything an accepted request can change. -/
namespace WayPoint.Manager
open Foundations

/-- The link written back into the other end of a relationship. -/
def backLink (instanceId : InstanceId) : Relationship := { instanceId := some instanceId }

/-- The description at `y` gets the parent link when `y` is one of the listed children. -/
def ParentWritten (clock : Clock) (instanceId : InstanceId) (cs : List Relationship) (y : String)
    (d d' : InstanceDescription) : Prop :=
  ∃ parent, d' = { d with parent } ∧
    Replaced clock (if some y ∈ cs.map Relationship.target then some (backLink instanceId) else none)
      d.parent parent

theorem linkChildren_run (instanceId : InstanceId) (cs : List Relationship) (s : InnerService)
    (clock : Clock) (h : Registered s cs) :
    ∃ s' later, (linkChildren instanceId cs).exec s clock = (.ok (), s', later) ∧
      Later clock later ∧ FiniteMap.Changes (ParentWritten clock instanceId cs) s s' := by
  induction cs generalizing s clock with
  | nil =>
    exact ⟨s, clock, rfl, .refl clock, .refl (fun y d => ⟨d.parent, rfl, by simp [Replaced]⟩) s⟩
  | cons c cs ih =>
    obtain ⟨k, hk, hks⟩ := h c List.mem_cons_self
    obtain ⟨dk, hdk⟩ := Finmap.mem_iff.mp hks
    let linked : InstanceDescription :=
      { dk with parent := some { backLink instanceId with timestampMs := some clock.head } }
    have hhead : FiniteMap.Changes (ParentWritten clock instanceId [c]) s (s.insert k linked) := by
      refine .insert hdk ⟨_, rfl, ?_⟩ (fun j u hj => ⟨u.parent, rfl, ?_⟩)
      · simp only [List.map_cons, hk, List.map_nil, List.mem_singleton, if_true]
        exact ⟨clock.head, (Later.refl clock).head_mem, rfl⟩
      · have hne : some j ≠ some k := fun he => hj (Option.some.inj he)
        simp only [List.map_cons, hk, List.map_nil, List.mem_singleton, hne, if_false]
        rfl
    obtain ⟨s', later, hrun, hlater, hrest⟩ := ih (s.insert k linked) clock.tail
      ((show Registered s cs from fun r hr => h r (List.mem_cons_of_mem c hr)).of_changes hhead)
    refine ⟨s', later, ?_, (Later.tail clock).trans hlater, hhead.trans ?_ hrest⟩
    · rw [linkChildren, exec_bind, getInstanceId_of_target hk]
      simp only [exec_lift]
      rw [exec_bind_ok s clock (exec_modifyInstance s clock _ _ hdk)]
      exact hrun
    · intro y a b c' hab hbc
      obtain ⟨pa, rfl, ha⟩ := hab
      obtain ⟨pb, rfl, hb⟩ := hbc
      refine ⟨pb, rfl, ?_⟩
      by_cases hy : some y ∈ cs.map Relationship.target
      · rw [if_pos hy] at hb
        rw [if_pos (by simp only [List.map_cons, List.mem_cons, hy, or_true])]
        exact (Later.tail clock).replaced_mono hb
      · rw [if_neg hy] at hb
        have hpb : pb = pa := hb
        subst hpb
        simpa only [List.map_cons, List.map_nil, List.mem_cons, List.not_mem_nil, hy, or_false]
          using ha

/-- The description at `y` gets one more child when `y` is the parent the request names. -/
def ChildAppended (clock : Clock) (instanceId : InstanceId) (parent : Option Relationship)
    (y : String) (d d' : InstanceDescription) : Prop :=
  if parent.bind Relationship.target = some y then
    ∃ t ∈ clock, d' = { d with
      children := some ⟨d.childList ++ [{ backLink instanceId with timestampMs := some t }]⟩ }
  else d' = d

theorem linkParent_run (instanceId : InstanceId) (parent : Option Relationship) (s : InnerService)
    (clock : Clock) (h : ∀ r ∈ parent, ∃ k, r.target = some k ∧ k ∈ s) :
    ∃ s' later, (linkParent instanceId parent).exec s clock = (.ok (), s', later) ∧
      Later clock later ∧ FiniteMap.Changes (ChildAppended clock instanceId parent) s s' := by
  cases parent with
  | none => exact ⟨s, clock, rfl, .refl clock, .refl (fun y d => by simp [ChildAppended]) s⟩
  | some r =>
    obtain ⟨k, hk, hks⟩ := h r rfl
    obtain ⟨dk, hdk⟩ := Finmap.mem_iff.mp hks
    let linked : InstanceDescription := { dk with
      children := some ⟨dk.childList ++ [{ backLink instanceId with timestampMs := some clock.head }]⟩ }
    refine ⟨s.insert k linked, clock.tail, ?_, .tail clock, .insert hdk ?_ ?_⟩
    · rw [linkParent, exec_bind, getInstanceId_of_target hk]
      simp only [exec_lift]
      exact exec_modifyInstance s clock _ _ hdk
    · simp only [ChildAppended, Option.bind_some, hk, if_true]
      exact ⟨clock.head, (Later.refl clock).head_mem, rfl⟩
    · intro j u hj
      have hne : some k ≠ some j := fun he => hj (Option.some.inj he).symm
      simp only [ChildAppended, Option.bind_some, hk, hne, if_false]

/-- The values a request of `x` writes at key `y`: its own fields there, and the back
links at the other ends of the relationships it adds. -/
def incoming (x : InstanceId) (request : InstanceDescription) (y : String) : InstanceDescription :=
  if y = x.instanceId then request
  else
    { parent := if some y ∈ request.childList.map Relationship.target then
        some (backLink x) else none
      children := if request.parent.bind Relationship.target = some y then
        some ⟨[backLink x]⟩ else none }

@[simp] theorem incoming_self (x : InstanceId) (request : InstanceDescription) :
    incoming x request x.instanceId = request := if_pos rfl

theorem incoming_other {x : InstanceId} {y : String} (hy : y ≠ x.instanceId)
    (request : InstanceDescription) : incoming x request y =
      { parent := if some y ∈ request.childList.map Relationship.target then
          some (backLink x) else none
        children := if request.parent.bind Relationship.target = some y then
          some ⟨[backLink x]⟩ else none } := if_neg hy

/-- Everything an accepted request may change in the description at key `y`. -/
structure Effect (clock : Clock) (x : InstanceId) (request : InstanceDescription) (y : String)
    (d d' : InstanceDescription) : Prop extends Updated clock (incoming x request y) d d' where
  kill : Replaced clock (incoming x request y).killInstanceRequest
      d.killInstanceRequest d'.killInstanceRequest ∨
    request.killInstanceRequest.isSome ∧ d.killInstanceRequest = none ∧ ∃ t ∈ clock,
      d'.killInstanceRequest = some ⟨some t, KillReason.parentDead.toI32⟩

/-- The links a request may add: its parent and children are registered and are not the instance. -/
structure Linkable (s : InnerService) (x : InstanceId) (request : InstanceDescription) : Prop where
  parent : ∀ r ∈ request.parent, ∃ k, r.target = some k ∧ k ∈ s ∧ k ≠ x.instanceId
  child : ∀ r ∈ request.childList, ∃ k, r.target = some k ∧ k ∈ s ∧ k ≠ x.instanceId

/-- The instance's own fields, written before any link. -/
def OwnFields (clock : Clock) (x : InstanceId) (request : InstanceDescription) (y : String)
    (d d' : InstanceDescription) : Prop :=
  if y = x.instanceId then
    Updated clock request d d' ∧
      Replaced clock request.killInstanceRequest d.killInstanceRequest d'.killInstanceRequest
  else d' = d

/-- Fields and links together, before any cascade. -/
def LinksWritten (clock : Clock) (x : InstanceId) (request : InstanceDescription) (y : String)
    (d d' : InstanceDescription) : Prop :=
  Updated clock (incoming x request y) d d' ∧
    Replaced clock (incoming x request y).killInstanceRequest
      d.killInstanceRequest d'.killInstanceRequest

private theorem linksWritten_self {s : InnerService} {clock later last : Clock} {x : InstanceId}
    {request a b c e : InstanceDescription} (hl : Linkable s x request)
    (ha : OwnFields clock x request x.instanceId a b)
    (hb : ParentWritten later x request.childList x.instanceId b c)
    (hc : ChildAppended last x request.parent x.instanceId c e) :
    LinksWritten clock x request x.instanceId a e := by
  have hnc : some x.instanceId ∉ request.childList.map Relationship.target := by
    rw [List.mem_map]
    intro h
    obtain ⟨r, hr, ht⟩ := h
    obtain ⟨k, hk, _, hne⟩ := hl.child r hr
    rw [ht] at hk
    exact hne (Option.some.inj hk).symm
  have hnp : request.parent.bind Relationship.target ≠ some x.instanceId := by
    intro he
    obtain ⟨r, hr, ht⟩ := Option.bind_eq_some_iff.mp he
    obtain ⟨k, hk, _, hne⟩ := hl.parent r hr
    rw [ht] at hk
    exact hne (Option.some.inj hk).symm
  obtain ⟨parent, rfl, hpar⟩ := hb
  rw [if_neg hnc] at hpar
  rw [ChildAppended, if_neg hnp] at hc
  have hp : parent = b.parent := hpar
  subst hp hc
  simpa only [OwnFields, LinksWritten, incoming_self, if_true] using ha

private theorem linksWritten_other {clock later last : Clock} {x : InstanceId}
    {request a b c e : InstanceDescription} {y : String} (hy : y ≠ x.instanceId)
    (hlater : Later clock later) (hlast : Later clock last)
    (ha : OwnFields clock x request y a b) (hb : ParentWritten later x request.childList y b c)
    (hc : ChildAppended last x request.parent y c e) : LinksWritten clock x request y a e := by
  rw [OwnFields, if_neg hy] at ha
  subst ha
  obtain ⟨parent, rfl, hpar⟩ := hb
  rw [LinksWritten, incoming_other hy]
  rw [ChildAppended] at hc
  split at hc
  · next he =>
    obtain ⟨t, ht, rfl⟩ := hc
    refine ⟨⟨rfl, rfl, rfl, rfl, rfl, hlater.replaced_mono hpar, ?_, rfl, rfl, rfl, rfl⟩, rfl⟩
    simp only [he, if_true]
    exact ⟨_, rfl, .cons ⟨t, hlast.mem ht, rfl⟩ .nil⟩
  · next he =>
    subst hc
    refine ⟨⟨rfl, rfl, rfl, rfl, rfl, hlater.replaced_mono hpar, ?_, rfl, rfl, rfl, rfl⟩, rfl⟩
    simp only [he, if_false]

/-- No phase before the cascade can fail on a linkable request. -/
theorem writeLinks_run {s : InnerService} {x : InstanceId} {request d : InstanceDescription}
    (hd : s.lookup x.instanceId = some d) (hl : Linkable s x request) (clock : Clock) :
    ∃ s' later, (commitUpdate x request).exec s clock = (killDescendants x).exec s' later ∧
      Later clock later ∧ FiniteMap.Changes (LinksWritten clock x request) s s' := by
  obtain ⟨d1, c1, hrun1, hc1, hup, hkill⟩ := updateFields_run request d clock
  have h1 : FiniteMap.Changes (OwnFields clock x request) s (s.insert x.instanceId d1) := by
    refine .insert hd ?_ (fun j u hj => ?_)
    · rw [OwnFields, if_pos rfl]
      exact ⟨hup, hkill⟩
    · rw [OwnFields, if_neg hj]
  have hreg : Registered s request.childList := fun r hr => by
    obtain ⟨k, hk, hks, _⟩ := hl.child r hr
    exact ⟨k, hk, hks⟩
  obtain ⟨s2, c2, hrun2, hc2, h2⟩ := linkChildren_run x request.childList _ c1 (hreg.of_changes h1)
  obtain ⟨s3, c3, hrun3, hc3, h3⟩ := linkParent_run x request.parent s2 c2 (fun r hr => by
    obtain ⟨k, hk, hks, _⟩ := hl.parent r hr
    exact ⟨k, hk, (h2.mem_iff k).mpr ((h1.mem_iff k).mpr hks)⟩)
  have h12 : FiniteMap.Changes (fun y a c => ∃ b, OwnFields clock x request y a b ∧
      ParentWritten c1 x request.childList y b c) s s2 :=
    h1.trans (fun _ _ b _ hab hbc => ⟨b, hab, hbc⟩) h2
  refine ⟨s3, c3, ?_, hc1.trans (hc2.trans hc3), h12.trans ?_ h3⟩
  · have hm := exec_modifyInstance s clock (.notFound "Instance not found") (updateFields request) hd
    rw [hrun1] at hm
    rw [commitUpdate, exec_bind_ok _ _ hm, exec_bind_ok _ _ hrun2, exec_bind_ok _ _ hrun3]
  · intro y a c e h hce
    obtain ⟨b, hab, hbc⟩ := h
    by_cases hy : y = x.instanceId
    · subst hy
      exact linksWritten_self hl hab hbc hce
    · exact linksWritten_other hy hc1 (hc1.trans hc2) hab hbc hce

theorem exec_killDescendants {s : InnerService} {x : InstanceId} {d : InstanceDescription}
    (hd : s.lookup x.instanceId = some d) (clock : Clock) :
    (killDescendants x).exec s clock =
      if d.killInstanceRequest.isSome then killChildren d.childList.reverse s clock
      else (.ok (), s, clock) := by
  unfold killDescendants
  rw [exec_get_bind]
  simp only [hd]
  split <;> rfl

theorem exec_killDescendants_missing {s : InnerService} {x : InstanceId}
    (h : s.lookup x.instanceId = none) (clock : Clock) :
    (killDescendants x).exec s clock = (.error (.notFound "Instance not found"), s, clock) := by
  unfold killDescendants
  rw [exec_get_bind]
  simp only [h, exec_throw]

/-- A request whose links are allowed where the instance is alive and may still take them. -/
structure Accepts (s : InnerService) (x : InstanceId) (request : InstanceDescription) : Prop where
  alive : Alive s x.instanceId
  parent : ∀ r ∈ request.parent, ∃ k, r.target = some k ∧ Alive s k ∧ k ≠ x.instanceId ∧
    ∀ p, ¬ HasParent s x.instanceId p
  child : ∀ r ∈ request.childList, ∃ k, r.target = some k ∧ k ∈ s ∧ k ≠ x.instanceId ∧
    ∀ p, ¬ HasParent s k p

theorem Accepts.linkable {s : InnerService} {x : InstanceId} {request : InstanceDescription}
    (h : Accepts s x request) : Linkable s x request where
  parent r hr := by
    obtain ⟨k, hk, ⟨d, hd, _⟩, hne, _⟩ := h.parent r hr
    exact ⟨k, hk, Finmap.mem_of_lookup_eq_some hd, hne⟩
  child r hr := by
    obtain ⟨k, hk, hks, hne, _⟩ := h.child r hr
    exact ⟨k, hk, hks, hne⟩

end WayPoint.Manager
