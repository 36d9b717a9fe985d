import WayPoint.Manager.Effect
import WayPoint.Manager.Handlers

/-! Stores that differ in metrics only. No section decides anything by the metrics of an entry, and a
metrics post writes nothing else. -/
namespace WayPoint.Manager
open Foundations

variable {s u : InnerService} {clock : Clock}

/-- A description without the four metrics fields. -/
def InstanceDescription.unmetered (d : InstanceDescription) : InstanceDescription :=
  { d with proxyMetrics := none, systemMetrics := none, gpuMetrics := none, llmMetrics := none }

section unmetered
variable {d e : InstanceDescription} (h : d.unmetered = e.unmetered)
include h

theorem killInstanceRequest_unmetered : d.killInstanceRequest = e.killInstanceRequest :=
  (congrArg InstanceDescription.killInstanceRequest h :)

private theorem childList_unmetered : d.childList = e.childList :=
  (congrArg InstanceDescription.childList h :)

end unmetered

def SameButMetrics (s u : InnerService) : Prop :=
  ∀ k, (s.lookup k).map InstanceDescription.unmetered = (u.lookup k).map InstanceDescription.unmetered

namespace SameButMetrics

theorem refl (s : InnerService) : SameButMetrics s s := fun _ => rfl

theorem absent (h : SameButMetrics s u) {k : String} (hk : s.lookup k = none) :
    u.lookup k = none := by
  have hmap := h k
  rw [hk] at hmap
  exact Option.map_eq_none_iff.mp hmap.symm

theorem present (h : SameButMetrics s u) {k : String} {d : InstanceDescription}
    (hd : s.lookup k = some d) : ∃ e, u.lookup k = some e ∧ d.unmetered = e.unmetered := by
  have hmap := h k
  rw [hd] at hmap
  obtain ⟨e, he, hsame⟩ := Option.map_eq_some_iff.mp hmap.symm
  exact ⟨e, he, hsame.symm⟩

theorem keys_eq (h : SameButMetrics s u) : s.keys = u.keys := by
  ext k
  have hk := congrArg Option.isSome (h k)
  rw [Option.isSome_map, Option.isSome_map] at hk
  rw [Finmap.mem_keys, Finmap.mem_keys, ← Finmap.lookup_isSome, ← Finmap.lookup_isSome, hk]

theorem insert (h : SameButMetrics s u) (key : String) {d e : InstanceDescription}
    (hde : d.unmetered = e.unmetered) : SameButMetrics (s.insert key d) (u.insert key e) := by
  intro k
  rw [FiniteMap.lookup_insert_eq, FiniteMap.lookup_insert_eq]
  split
  · exact congrArg some hde
  · exact h k

theorem erase (h : SameButMetrics s u) (key : String) :
    SameButMetrics (s.erase key) (u.erase key) := by
  intro k
  rw [FiniteMap.lookup_erase_eq, FiniteMap.lookup_erase_eq]
  split
  · rfl
  · exact h k

/-- Overwriting one entry with another that has the same fields apart from its metrics. -/
private theorem overwrite (h : SameButMetrics s u) {key : String} {d e : InstanceDescription}
    (hd : s.lookup key = some d) (hde : e.unmetered = d.unmetered) :
    SameButMetrics (s.insert key e) u := by
  intro k
  rw [FiniteMap.lookup_insert_eq]
  split
  · next hk => rw [← h k, hk, hd, Option.map_some, Option.map_some, hde]
  · exact h k

end SameButMetrics

/-- One outcome on each of two stores. -/
structure AlikeRun {α : Type} (x y : Except Status α × InnerService × Clock) : Prop where
  result : x.1 = y.1
  store : SameButMetrics x.2.1 y.2.1
  clock : x.2.2 = y.2.2

/-- Code that holds the lock and does the same whatever the metrics of the entries are. -/
def Blind {α : Type} (m : Locked α) : Prop :=
  ∀ s u clock, SameButMetrics s u → AlikeRun (m.exec s clock) (m.exec u clock)

section combinators
variable {α β : Type}

private theorem blind_pure (a : α) : Blind (pure a : Locked α) := fun _ _ _ h => ⟨rfl, h, rfl⟩

private theorem blind_lift (r : Except Status α) : Blind (liftM r : Locked α) := fun _ _ _ h => ⟨rfl, h, rfl⟩

private theorem blind_bind {m : Locked α} {f : α → Locked β} (hm : Blind m) (hf : ∀ a, Blind (f a)) :
    Blind (m >>= f) := by
  intro s u clock h
  obtain ⟨hresult, hstore, hclock⟩ := hm s u clock h
  rcases exec_bind_both s clock hresult hclock with ⟨e, later, hs, hu⟩ | ⟨a, later, hs, hu⟩
  · rw [hs, hu]
    exact ⟨rfl, hstore, rfl⟩
  · rw [hs, hu]
    exact hf a _ _ later hstore

end combinators

private theorem blind_modifyInstance {key : String} (missing : Status)
    {write : InstanceDescription → StateM Clock InstanceDescription}
    (hwrite : ∀ d e clock, d.unmetered = e.unmetered →
      (write d clock).1.unmetered = (write e clock).1.unmetered ∧ (write d clock).2 = (write e clock).2) :
    Blind (modifyInstance key missing write) := by
  intro s u clock h
  cases hs : s.lookup key with
  | none =>
    rw [exec_modifyInstance_missing s clock missing write hs,
      exec_modifyInstance_missing u clock missing write (h.absent hs)]
    exact ⟨rfl, h, rfl⟩
  | some d =>
    obtain ⟨e, hu, hde⟩ := h.present hs
    obtain ⟨hsame, hclock⟩ := hwrite d e clock hde
    rw [exec_modifyInstance s clock missing write hs, exec_modifyInstance u clock missing write hu]
    exact ⟨rfl, h.insert key hsame, hclock⟩

private theorem updateFields_unmetered (request : InstanceDescription) {d e : InstanceDescription}
    (clock : Clock) (h : d.unmetered = e.unmetered) :
    (updateFields request d clock).1.unmetered = (updateFields request e clock).1.unmetered ∧
      (updateFields request d clock).2 = (updateFields request e clock).2 := by
  have hclear (d : InstanceDescription) :
      (updateFields request d clock).1.unmetered = (updateFields request d.unmetered clock).1.unmetered ∧
        (updateFields request d clock).2 = (updateFields request d.unmetered clock).2 := by
    simp only [updateFields, bind, StateT.bind, updateServices_run, updateHealthCheck_run,
      updateParent_run, updateChildren_run, updateKill_run, updateProxyMetrics_run,
      updateSystemMetrics_run, updateGpuMetrics_run, updateLlmMetrics_run]
    exact ⟨rfl, trivial⟩
  obtain ⟨hd, hd'⟩ := hclear d
  obtain ⟨he, he'⟩ := hclear e
  rw [hd, hd', he, he', h]
  exact ⟨rfl, rfl⟩

private theorem blind_linkChildren (x : InstanceId) (cs : List Relationship) : Blind (linkChildren x cs) := by
  induction cs with
  | nil => exact blind_pure ()
  | cons c cs ih =>
    refine blind_bind (blind_lift _) fun id => blind_bind ?_ fun _ => ih
    refine blind_modifyInstance _ fun d e clock h => ?_
    exact ⟨congrArg (fun d => (updateInstanceDescription d (some { instanceId := some x : Relationship })
      clock).1) h, rfl⟩

private theorem blind_linkParent (x : InstanceId) (parent : Option Relationship) :
    Blind (linkParent x parent) := by
  cases parent with
  | none => exact blind_pure ()
  | some r =>
    refine blind_bind (blind_lift _) fun id => ?_
    refine blind_modifyInstance _ fun d e clock h => ?_
    exact ⟨congrArg (fun d => (updateInstanceDescription d (some { children := [{ instanceId := some x }] : Children })
      clock).1) h, rfl⟩

/-- The cascade looks at kill requests and children lists only. -/
private theorem killChildren_alikeRun (children : List Relationship) (s : InnerService) (clock : Clock)
    (u : InnerService) (h : SameButMetrics s u) :
    AlikeRun (killChildren children s clock) (killChildren children u clock) := by
  fun_induction killChildren children s clock generalizing u with
  | case1 s clock =>
    rw [killChildren_nil]
    exact ⟨rfl, h, rfl⟩
  | case2 s clock child rest e hid =>
    rw [killChildren_unnamed hid]
    exact ⟨rfl, h, rfl⟩
  | case3 s clock child rest id hid hnone ih =>
    rw [killChildren_unregistered hid (h.absent hnone)]
    exact ih u h
  | case4 s clock child rest id hid d hs hk ih =>
    obtain ⟨e, hu, hde⟩ := h.present hs
    have hkill := killInstanceRequest_unmetered hde
    rw [killChildren_dead hid hu (hkill ▸ hk)]
    exact ih u h
  | case5 s clock child rest id hid d hs hk ih =>
    obtain ⟨e, hu, hde⟩ := h.present hs
    have hkill := killInstanceRequest_unmetered hde
    have hchildren := childList_unmetered hde
    have hkilled : (killOrphan d clock).1.unmetered = (killOrphan e clock).1.unmetered :=
      congrArg (fun d => (killOrphan d clock).1) hde
    rw [killChildren_alive hid hu (hkill ▸ hk), ← hchildren]
    exact ih _ (h.insert id.instanceId hkilled)

private theorem blind_killDescendants (x : InstanceId) : Blind (killDescendants x) := by
  intro s u clock h
  cases hs : s.lookup x.instanceId with
  | none =>
    rw [exec_killDescendants_missing hs, exec_killDescendants_missing (h.absent hs)]
    exact ⟨rfl, h, rfl⟩
  | some d =>
    obtain ⟨e, hu, hde⟩ := h.present hs
    have hkill := killInstanceRequest_unmetered hde
    have hchildren := childList_unmetered hde
    rw [exec_killDescendants hs, exec_killDescendants hu, ← hkill, ← hchildren]
    split
    · exact killChildren_alikeRun _ s clock u h
    · exact ⟨rfl, h, rfl⟩

private theorem blind_commitUpdate (x : InstanceId) (request : InstanceDescription) :
    Blind (commitUpdate x request) :=
  blind_bind (blind_modifyInstance _ fun _ _ clock => updateFields_unmetered request clock) fun _ =>
    blind_bind (blind_linkChildren x _) fun _ =>
      blind_bind (blind_linkParent x _) fun _ => blind_killDescendants x

private theorem validateRelationship_unmetered {p q c e : InstanceDescription}
    (hp : p.unmetered = q.unmetered) (hc : c.unmetered = e.unmetered) :
    validateRelationship p c = validateRelationship q e :=
  (congrArg₂ validateRelationship hp hc :)

private theorem validateLinks_unmetered (h : SameButMetrics s u) {d e : InstanceDescription}
    (hde : d.unmetered = e.unmetered) (request : InstanceDescription) :
    validateLinks s d request = validateLinks u e request := by
  have hparent : validateParent s d request.parent = validateParent u e request.parent := by
    cases request.parent with
    | none => rfl
    | some r =>
      refine congrArg (Except.bind (getInstanceId r.instanceId)) (funext fun id => ?_)
      cases hs : s.lookup id.instanceId with
      | none => simp only [h.absent hs]
      | some p =>
        obtain ⟨q, hu, hpq⟩ := h.present hs
        simp only [hu, validateRelationship_unmetered hpq hde]
  have hchildren (cs : List Relationship) : validateChildren s d cs = validateChildren u e cs := by
    induction cs with
    | nil => rfl
    | cons c cs ih =>
      refine congrArg (Except.bind (getInstanceId c.instanceId)) (funext fun id => ?_)
      cases hs : s.lookup id.instanceId with
      | none => simp only [h.absent hs]
      | some p =>
        obtain ⟨q, hu, hpq⟩ := h.present hs
        simp only [hu, validateRelationship_unmetered hde hpq, ih]
  simp only [validateLinks, hparent, hchildren]

theorem blind_apply (request : InstanceDescription) : Blind (applyToInstanceDescription request) := by
  unfold applyToInstanceDescription
  split
  · next x _ _ _ =>
    intro s u clock h
    rw [exec_bind, exec_bind, exec_readStore, exec_readStore]
    simp only []
    cases hs : s.lookup x.instanceId with
    | none =>
      simp only [h.absent hs]
      exact ⟨rfl, h, rfl⟩
    | some d =>
      obtain ⟨e, hu, hde⟩ := h.present hs
      have hkill := killInstanceRequest_unmetered hde
      simp only [hu, ← hkill, ← validateLinks_unmetered h hde]
      split
      · exact ⟨rfl, h, rfl⟩
      · refine blind_bind (blind_lift _) (fun ok => ?_) s u clock h
        cases ok with
        | true => exact blind_bind (blind_commitUpdate x request) (fun _ => blind_pure true)
        | false => exact blind_pure false
  · exact fun s u clock h => ⟨rfl, h, rfl⟩

/-- Where nothing but metrics is set, nothing but metrics is written. -/
private theorem updateFields_metrics {request : InstanceDescription} (hservices : request.services = none)
    (hhealth : request.healthCheck = none) (hparent : request.parent = none)
    (hchildren : request.children = none) (hkill : request.killInstanceRequest = none)
    (d : InstanceDescription) (clock : Clock) :
    (updateFields request d clock).1.unmetered = d.unmetered := by
  simp only [updateFields, bind, StateT.bind, updateServices_run, updateHealthCheck_run,
    updateParent_run, updateChildren_run, updateKill_run, updateProxyMetrics_run,
    updateSystemMetrics_run, updateGpuMetrics_run, updateLlmMetrics_run, hservices, hhealth, hparent,
    hchildren, hkill]
  rfl

/-- A post whose shape is right reaches the shared code that can link and kill, and does neither. -/
theorem apply_post {request : InstanceDescription} (h : postShape request) (s : InnerService)
    (clock : Clock) : SameButMetrics ((applyToInstanceDescription request).exec s clock).2.1 s := by
  simp only [postShape, Bool.and_eq_true, Option.isNone_iff_eq_none] at h
  obtain ⟨⟨⟨⟨⟨⟨⟨_, hcreated⟩, htype⟩, hchildren⟩, hparent⟩, hhealth⟩, hkill⟩, hservices⟩ := h
  unfold applyToInstanceDescription
  split
  · next x _ _ _ =>
    rw [exec_bind, exec_readStore]
    simp only []
    cases hs : s.lookup x.instanceId with
    | none => exact .refl s
    | some d =>
      by_cases hdead : d.killInstanceRequest.isSome
      · simp only [hdead, if_true]
        exact .refl s
      · have hnone : d.killInstanceRequest = none := by simpa using hdead
        have hlinks : validateLinks s d request = .ok true := by
          simp [validateLinks, hparent, validateParent, InstanceDescription.childList, hchildren,
            validateChildren, bind, Except.bind]
        have hwritten := updateFields_metrics hservices hhealth hparent hchildren hkill d clock
        have halive : (updateFields request d clock).1.killInstanceRequest = none :=
          (killInstanceRequest_unmetered hwritten).trans hnone
        have hcommit : (commitUpdate x request).exec s clock =
            (.ok (), s.insert x.instanceId (updateFields request d clock).1,
              (updateFields request d clock).2) := by
          unfold commitUpdate
          rw [exec_bind_ok _ _ (exec_modifyInstance s clock _ _ hs)]
          simp only [InstanceDescription.childList, hchildren, hparent, linkChildren, linkParent]
          rw [exec_bind_ok _ _ (exec_pure _ _ _), exec_bind_ok _ _ (exec_pure _ _ _),
            exec_killDescendants (Finmap.lookup_insert s)]
          simp only [halive, Option.isSome_none, Bool.false_eq_true, if_false]
        simp only [hdead, Bool.false_eq_true, if_false, hlinks]
        rw [exec_bind_ok _ _ (exec_lift s clock _)]
        simp only [if_true]
        rw [exec_bind_ok _ _ hcommit]
        exact (SameButMetrics.refl s).overwrite hs hwritten
  · exact .refl s

end WayPoint.Manager
