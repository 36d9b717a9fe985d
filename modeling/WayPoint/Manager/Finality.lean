import WayPoint.Manager.Lifecycle
import WayPoint.Manager.Work

/-! Death is final: no later work changes a kill request, revives an instance, lists it or links a
new child to it. -/
namespace WayPoint.Manager
open Foundations Program

variable {s s' base : InnerService} {clock : Clock} {x : InstanceId} {request : InstanceDescription}
  {y : String} {kill : KillInstanceRequest}

/-- `y` is registered and carries this kill request, with its reason and its time. -/
def KilledBy (s : InnerService) (y : String) (kill : KillInstanceRequest) : Prop :=
  ∃ d, s.lookup y = some d ∧ d.killInstanceRequest = some kill

instance (s : InnerService) (y : String) (kill : KillInstanceRequest) :
    Decidable (KilledBy s y kill) :=
  inferInstanceAs (Decidable (∃ d ∈ s.lookup y, d.killInstanceRequest = some kill))

theorem KilledBy.mem_dead (h : KilledBy s y kill) : y ∈ dead s := by
  obtain ⟨d, hd, hk⟩ := h
  exact ⟨d, hd, by rw [hk]; rfl⟩

/-- The update on an instance itself comes behind the guard on its life, and a cascade skips the
dead. -/
theorem KilledBy.applied (h : KilledBy s y kill) (hx : Accepts s x request)
    (ha : Applied clock x request s s') : KilledBy s' y kill := by
  have hne : y ≠ x.instanceId := by
    rintro rfl
    exact hx.alive.notMem_dead h.mem_dead
  obtain ⟨d, hd, hk⟩ := h
  obtain ⟨d', hd', he⟩ := ha.effect.present hd
  refine ⟨d', hd', ?_⟩
  rcases he.kill with hsame | ⟨_, hnone, _⟩
  · rw [incoming_other hne] at hsame
    exact (show d'.killInstanceRequest = d.killInstanceRequest from hsame).trans hk
  · rw [hnone] at hk
    cases hk

theorem KilledBy.onBase {rpc : Rpc} (h : KilledBy s y kill) (hb : rpc.Base s base) :
    KilledBy base y kill := by
  obtain ⟨d, hd, hk⟩ := h
  cases hb with
  | registering t now _ _ fresh =>
    refine ⟨d, (lookup_blank_ne ?_).trans hd, hk⟩
    rintro rfl
    rw [fresh] at hd
    cases hd
  | found => exact ⟨d, hd, hk⟩

theorem KilledBy.changes (h : KilledBy s y kill)
    (hch : FiniteMap.Changes (fun _ => KilledOnly) s s') : KilledBy s' y kill := by
  obtain ⟨d, hd, hk⟩ := h
  obtain ⟨d', hd', hkilled⟩ := hch.present hd
  rcases hkilled with rfl | ⟨hnone, _⟩
  · exact ⟨_, hd', hk⟩
  · rw [hnone] at hk
    cases hk

private theorem hasParent_of_killedOnly (hch : FiniteMap.Changes (fun _ => KilledOnly) s s') {c p : String}
    (h : HasParent s' c p) : HasParent s c p := by
  obtain ⟨d', hd', r, hr, ht⟩ := h
  obtain ⟨d, hd, hkilled⟩ := hch.back hd'
  refine ⟨d, hd, r, ?_, ht⟩
  rcases hkilled with rfl | ⟨_, _, rfl⟩
  · exact hr
  · exact hr

/-- What holds of a dead instance between two pieces of work: its kill request, and that it has no
other children than it had in the store `s`. -/
structure Buried (s : InnerService) (y : String) (kill : KillInstanceRequest) (u : InnerService) :
    Prop where
  consistent : Consistent u
  killed : KilledBy u y kill
  childless : ∀ c, HasParent u c y → HasParent s c y

theorem Buried.rpc {u u' : InnerService} (h : Buried s y kill u) {rpc : Rpc} {answer : Answer}
    (hrun : whole rpc u answer u') : Buried s y kill u' := by
  have hconsistent := whole_consistent h.consistent hrun
  cases rpc_outcome h.consistent hrun with
  | refused _ _ same =>
    rw [same]
    exact h
  | @carried base x request clock hc ha _ =>
    have hkilled := h.killed.onBase hc.starts
    refine ⟨hconsistent, hkilled.applied hc.accepted.toAccepts ha, fun c hparent => ?_⟩
    rcases (ha.hasParent c y).mp hparent with hold | hnew
    · refine h.childless c ?_
      cases hc.starts with
      | registering t now _ _ fresh => exact (hasParent_blank _ _ fresh c y).mp hold
      | found => exact hold
    · -- the parents a request names are alive
      exact absurd hkilled.mem_dead (hnew.parent_alive hc.accepted.toAccepts).notMem_dead

theorem Buried.work {u u' : InnerService} (h : Buried s y kill u) {work : Work}
    {answer : Option Answer} (hrun : worked work u answer u') : Buried s y kill u' := by
  cases worked_done h.consistent hrun with
  | rpc run _ => exact h.rpc run
  | killPass consistent changes =>
    exact ⟨consistent, h.killed.changes changes,
      fun c hparent => h.childless c (hasParent_of_killedOnly changes hparent)⟩

/-- The request's own instance, for the requests that may write. -/
def Rpc.subject : Rpc → Option InstanceId
  | .tryAddInstance request | .tryUpdateInstanceDescription request
  | .postInstanceDescription request => request.instanceId
  | .killUnhealth instanceId _ _ => some instanceId
  | .getInstance _ | .getAllInstances _ => none

theorem Rpc.update_subject {rpc : Rpc} (h : rpc.update = some request) :
    rpc.subject = request.instanceId := by
  cases rpc with
  | tryAddInstance d | tryUpdateInstanceDescription d | postInstanceDescription d =>
    rw [Rpc.update, Option.ite_none_right_eq_some, Option.some.injEq] at h
    obtain ⟨_, rfl⟩ := h
    rfl
  | killUnhealth id reason current =>
    cases h
    rfl
  | getInstance | getAllInstances => cases h

theorem Rpc.subject_answer {rpc : Rpc} {answer : Answer} (hsub : rpc.subject = some x)
    (h : whole rpc s answer s') : ∃ r, answer = .bool r := by
  cases rpc with
  | tryAddInstance | tryUpdateInstanceDescription | postInstanceDescription | killUnhealth =>
    obtain ⟨r, rfl, _⟩ := runs_map_iff.mp h
    exact ⟨r, rfl⟩
  | getInstance | getAllInstances => cases hsub

/-- A request for a dead instance answers `Ok(false)` or an error, and changes nothing. -/
theorem Buried.refuses {u u' : InnerService} (h : Buried s y kill u) {rpc : Rpc} {answer : Answer}
    (hsub : rpc.subject = some ⟨y⟩) (hrun : whole rpc u answer u') :
    (∃ r, answer = .bool r ∧ r ≠ .ok true) ∧ u' = u := by
  cases rpc_outcome h.consistent hrun with
  | refused _ answered same =>
    obtain ⟨r, rfl⟩ := Rpc.subject_answer hsub hrun
    exact ⟨⟨r, rfl, fun hr => answered (congrArg Answer.bool hr)⟩, same⟩
  | @carried base x request clock hc _ _ =>
    obtain rfl : x = ⟨y⟩ := by
      have hid := (Rpc.update_subject hc.update).symm.trans hsub
      exact Option.some.inj (hc.accepted.instanceId.symm.trans hid)
    exact absurd (h.killed.onBase hc.starts).mem_dead hc.accepted.alive.notMem_dead

theorem Buried.unlisted {u u' : InnerService} (h : Buried s y kill u) {query : AllInstancesQuery}
    {ids : List InstanceId} (hrun : whole (.getAllInstances query) u (.instanceIds ids) u') :
    ⟨y⟩ ∉ ids := by
  obtain ⟨r, hr, hget⟩ := runs_map_iff.mp hrun
  cases hr
  obtain ⟨clock, entries, he, hserve⟩ := runs_perform_iff.mp hget
  obtain ⟨rfl, _⟩ := Prod.mk.inj hserve
  intro hmem
  obtain ⟨d, hd, halive, _⟩ := (mem_getAllInstances h.consistent.named he query ⟨y⟩).mp hmem
  exact Alive.notMem_dead ⟨d, hd, halive⟩ h.killed.mem_dead

/-- After any further work a dead instance has the kill request it had, whoever has it as parent had
it before and is dead too, and on the way it was never changed by a request for it or listed. -/
theorem death_final (h : Reachable s) (hy : KilledBy s y kill)
    {past : List (Served (fun _ : Work => Option Answer) InnerService)}
    (ht : Trace worked s past s') :
    KilledBy s' y kill ∧ (∀ c, HasParent s' c y → HasParent s c y ∧ c ∈ dead s') ∧
      ∀ e ∈ past, ∀ rpc, e.call = .rpc rpc →
        (rpc.subject = some ⟨y⟩ →
          (∃ r, e.reply = some (.bool r) ∧ r ≠ .ok true) ∧ e.after = e.before) ∧
        ∀ query ids, rpc = .getAllInstances query → e.reply = some (.instanceIds ids) → ⟨y⟩ ∉ ids := by
  obtain ⟨hend, hall⟩ := ht.invariant (I := Buried s y kill) ⟨h.consistent, hy, fun _ hc => hc⟩
    (fun _ _ _ _ hb hrun => hb.work hrun)
  refine ⟨hend.killed, fun c hc => ⟨hend.childless c hc, ?_⟩, fun e he rpc hcall => ?_⟩
  · exact hend.consistent.deathClosed hend.killed.mem_dead ((hend.consistent.agree c y).mp hc)
  · obtain ⟨hbefore, hrun, _⟩ := hall e he
    obtain ⟨call, before, reply, after⟩ := e
    obtain rfl : call = .rpc rpc := hcall
    obtain ⟨answer, rfl, hwhole⟩ := runs_map_iff.mp hrun
    refine ⟨fun hsub => ?_, fun query ids hq hids => ?_⟩
    · obtain ⟨⟨r, rfl, hr⟩, hsame⟩ := hbefore.refuses hsub hwhole
      exact ⟨⟨r, rfl, hr⟩, hsame⟩
    · subst hq
      cases hids
      exact hbefore.unlisted hwhole

/-- The browser of the killed backend tries to come back: a heartbeat, a new registration, a pass of
the kill loop and a listing. -/
def comeback : List Work :=
  [.rpc (.tryUpdateInstanceDescription { instanceId := some ⟨"chrome"⟩, healthCheck := some {} }),
    .rpc (.tryAddInstance
      { instanceId := some ⟨"chrome"⟩, instanceType := some InstanceType.chromeBrowser.toI32 }),
    .killPass, .rpc (.getAllInstances { instanceType := InstanceType.chromeBrowser.toI32 })]

theorem death_final_comeback :
    KilledBy (record (Work.execute (Stream'.const ⟨9000⟩)) (replay ∅ killedFamily) [] comeback).2
      "chrome" ⟨some ⟨5000⟩, KillReason.parentDead.toI32⟩ :=
  (death_final (Reachable.empty.replay killedFamily) (by decide +kernel)
    (trace_record (worked_execute (Stream'.const ⟨9000⟩)) comeback .nil)).1

end WayPoint.Manager
