import WayPoint.Manager.Registration
import WayPoint.Manager.Untimed

/-! Requests whose sections interleave are atomic as long as no section names an id that another
request is still registering. Where one does, a link to a registration that is rolled back stays. -/
namespace WayPoint.Manager
open Foundations Program

variable {ι : Type} {requests : ι → Rpc} {cfg cfg' : ClientConfig ι} {s u : InnerService}
  {history : List (ι × Answer)}

theorem serial_consistent (hs : Consistent s) (h : (clients requests).Serial s history u) :
    Consistent u := by
  refine h.preserves hs ?_
  intro i t a v ht hrun
  rcases rpc_cases ht hrun with ⟨_, rfl⟩ | ⟨_, hm⟩
  · exact ht
  · exact hm.consistent ht

private theorem tracks_initial (requests : ι → Rpc) (s : InnerService) :
    Tracks requests (.initial s) [] s where
  framed := by
    refine ⟨fun _ => rfl, ?_⟩
    intro y h
    obtain ⟨i, hi⟩ := h
    exact absurd hi (not_underWay_none y)
  alone hi _ := absurd hi (not_underWay_none _)
  phase i := .idle List.not_mem_nil

/-- The links of a store whose extra entries are blank. -/
theorem Tracks.wellLinked (h : Tracks requests cfg history u) (hu : WellLinked u) :
    WellLinked cfg.state := by
  have hentry {k : String} {d : InstanceDescription} (hd : cfg.state.lookup k = some d) :
      u.lookup k = some d ∨ d.instanceId = some ⟨k⟩ ∧ d.parent = none ∧ d.childList = [] := by
    by_cases hk : k ∈ halfMade requests cfg
    · obtain ⟨t, now, hblank⟩ := h.blank hk
      rw [hd] at hblank
      cases hblank
      exact Or.inr ⟨rfl, rfl, rfl⟩
    · exact Or.inl ((h.framed.outside hk).symm.trans hd)
  have hback {k : String} {d : InstanceDescription} (hd : u.lookup k = some d) :
      cfg.state.lookup k = some d := by
    refine (h.framed.outside fun hk => ?_).trans hd
    rw [h.framed.absent hk] at hd
    cases hd
  have hmem {k : String} (hk : k ∈ u) : k ∈ cfg.state := by
    rw [Finmap.mem_iff] at hk ⊢
    exact hk.imp fun d hd => hback hd
  refine ⟨?_, ?_, ?_, fun c p => ?_⟩
  · intro k d hd
    rcases hentry hd with hd | ⟨hk, _, _⟩
    · exact hu.key hd
    · exact hk
  · intro k d r hd hr
    rcases hentry hd with hd | ⟨_, hp, _⟩
    · obtain ⟨p, hp, hpu, hne⟩ := hu.parent hd hr
      exact ⟨p, hp, hmem hpu, hne⟩
    · rw [hp] at hr
      cases hr
  · intro k d r hd hr
    rcases hentry hd with hd | ⟨_, _, hc⟩
    · obtain ⟨c, hc, hcu, hne⟩ := hu.child hd hr
      exact ⟨c, hc, hmem hcu, hne⟩
    · rw [hc] at hr
      cases hr
  · have hparent : HasParent cfg.state c p ↔ HasParent u c p := by
      constructor
      · intro hp
        obtain ⟨d, hd, r, hr, ht⟩ := hp
        rcases hentry hd with hd | ⟨_, hp, _⟩
        · exact ⟨d, hd, r, hr, ht⟩
        · rw [hp] at hr
          cases hr
      · intro hp
        obtain ⟨d, hd, r, hr, ht⟩ := hp
        exact ⟨d, hback hd, r, hr, ht⟩
    have hchild : HasChild cfg.state p c ↔ HasChild u p c := by
      constructor
      · intro hc
        obtain ⟨d, hd, r, hr, ht⟩ := hc
        rcases hentry hd with hd | ⟨_, _, hc⟩
        · exact ⟨d, hd, r, hr, ht⟩
        · rw [hc] at hr
          cases hr
      · intro hc
        obtain ⟨d, hd, r, hr, ht⟩ := hc
        exact ⟨d, hback hd, r, hr, ht⟩
    rw [hparent, hchild]
    exact hu.agree c p

section step
variable [DecidableEq ι]

/-- A request that answers without any section happens when it arrives. -/
theorem Tracks.start_step (h : Tracks requests cfg history u) {i : ι} (hi : cfg.thread i = none) :
    ∃ history' u', (clients requests).Appends history u history' u' ∧
      Tracks requests (cfg.run i (requests i).handler) history' u' := by
  have hnot : ∀ x, ¬ Registering requests cfg i x := by
    intro x
    rw [Registering, hi]
    exact not_underWay_none x
  have hfresh : i ∉ history.map Prod.fst := by
    have hp := h.phase i
    rw [hi] at hp
    cases hp with
    | idle fresh => exact fresh
  have hframed := framed_of_not_underWay (p := (requests i).handler) not_underWay_handler
    (h.framed_others hnot)
  cases hp : (requests i).handler with
  | done a =>
    rw [hp] at hframed
    have hrun : Runs serves u (requests i).handler a u := hp ▸ .done u a
    refine ⟨(i, a) :: history, u, Or.inr ⟨i, a, rfl, hfresh, hrun⟩, ?_⟩
    exact h.step (fun e he => List.mem_cons_of_mem _ he) fresh_cons (fun _ _ => rfl)
      (.done List.mem_cons_self) hframed (fun x hx => absurd hx (not_underWay_done a x))
  | call c next =>
    rw [← hp]
    refine ⟨history, u, Or.inl ⟨rfl, rfl⟩, ?_⟩
    exact h.step (fun e he => he) (fun _ _ hj => hj) (fun _ _ => rfl)
      (hp ▸ .ready hfresh hp) hframed (fun x hx => absurd hx (not_underWay_handler x))

/-- Every step of an undisturbed run keeps in step with the serial execution. -/
theorem Tracks.advance (h : Tracks requests cfg history u) (hu : Consistent u) {l : Label ι Section}
    (hallowed : Undisturbed requests cfg l) (hstep : (clients requests).Step cfg l cfg') :
    ∃ history' u', (clients requests).Appends history u history' u' ∧
      Tracks requests cfg' history' u' := by
  cases hstep with
  | start i hi => exact h.start_step hi
  | environment henv => exact absurd henv id
  | @call i c next r s' hi served =>
    have hnames : ∀ x ∈ c.names, x ∉ othersHalfMade requests cfg i := by
      intro x hx hother
      obtain ⟨j, hj, hreg⟩ := hother
      exact hallowed x hx j hj hreg
    have hp := h.phase i
    rw [hi] at hp
    cases hp with
    | ready fresh waits =>
      rcases handler_cases (requests i) with ⟨a, ha⟩ | ⟨c', f, hc, hf, _⟩ | ⟨request, x, t, adds, named, runs⟩
      · rw [waits] at ha
        cases ha
      · have hcall := waits.symm.trans hf
        cases hcall
        obtain ⟨u', hrun, htracks⟩ := h.plain_step hu hc hf hi hnames served
        exact ⟨_, u', Or.inr ⟨i, _, rfl, fresh, hrun⟩, htracks⟩
      · have hcall := waits.symm.trans runs
        cases hcall
        exact h.insert_step adds named runs hi fresh (hnames _ rfl) served
    | inserted fresh adds named runs entry =>
      exact h.apply_step hu adds named runs hi fresh entry hnames served
    | undoing adds named entry answered =>
      obtain rfl := serves_remove_iff.mp served
      exact ⟨history, u, Or.inl ⟨rfl, rfl⟩, h.remove_step adds named hi answered⟩

theorem tracks_reached (hs : Reachable s)
    (h : (clients requests).Reaches (Undisturbed requests) (.initial s) cfg) :
    ∃ history u, (clients requests).Serial s history u ∧ Tracks requests cfg history u := by
  refine System.Reaches.serial h (tracks_initial requests s) ?_
  intro a l b history u hserial htracks hallowed hstep
  exact htracks.advance (serial_consistent hs.consistent hserial) hallowed hstep

end step

theorem Tracks.answered (h : Tracks requests cfg history u) {i : ι} {a : Answer}
    (ha : cfg.finished i a) : (i, a) ∈ history := by
  have hp := h.phase i
  rw [Config.finished] at ha
  rw [ha] at hp
  cases hp with
  | done answered => exact answered

theorem Tracks.started (h : Tracks requests cfg history u) {i : ι} {a : Answer}
    (ha : (i, a) ∈ history) : cfg.thread i ≠ none := by
  intro hi
  have hp := h.phase i
  rw [hi] at hp
  cases hp with
  | idle fresh => exact fresh (List.mem_map_of_mem (f := Prod.fst) ha)

/-- No registration is under way once every request that arrived is answered. -/
private theorem halfMade_settled (h : ∀ i, cfg.thread i = none ∨ ∃ a, cfg.finished i a) :
    halfMade requests cfg = ∅ := by
  refine Set.eq_empty_of_forall_notMem ?_
  intro x hx
  obtain ⟨i, hi⟩ := hx
  rcases h i with hnone | ⟨a, ha⟩
  · rw [Registering, hnone] at hi
    exact not_underWay_none x hi
  · rw [Registering, ha] at hi
    exact not_underWay_done a x hi

/-- Undisturbed registrations are atomic: every moment of a run has a serial execution with the
same answers and the same store, and no link is ever left dangling. -/
theorem undisturbed_atomic [DecidableEq ι] (hs : Reachable s)
    (h : (clients requests).Reaches (Undisturbed requests) (.initial s) cfg) :
    Serializable requests s cfg ∧ WellLinked cfg.state ∧
      ((∀ i, cfg.thread i = none ∨ ∃ a, cfg.finished i a) →
        ∃ history, (clients requests).Serial s history cfg.state ∧
          ∀ i a, (i, a) ∈ history ↔ cfg.finished i a) := by
  obtain ⟨history, u, hserial, htracks⟩ := tracks_reached hs h
  have hu := serial_consistent hs.consistent hserial
  refine ⟨⟨history, u, hserial, fun i a => htracks.answered, fun i a => htracks.started,
    htracks.framed⟩, htracks.wellLinked hu.toWellLinked, fun hsettled => ⟨history, ?_, ?_⟩⟩
  · have hframed := htracks.framed
    rw [halfMade_settled hsettled] at hframed
    have hstate : cfg.state = u := Finmap.ext_lookup fun k => hframed.outside (Set.notMem_empty k)
    rw [hstate]
    exact hserial
  · intro i a
    refine ⟨fun ha => ?_, htracks.answered⟩
    rcases hsettled i with hnone | ⟨b, hb⟩
    · exact absurd hnone (htracks.started ha)
    · rw [hserial.functional ha (htracks.answered hb)]
      exact hb

section separate
variable [DecidableEq ι]

/-- Every id a request refers to. -/
def Rpc.names : Rpc → Set String
  | .tryAddInstance request => request.names
  | .tryUpdateInstanceDescription request => request.names
  | .postInstanceDescription request => request.names
  | .getInstance id => {id.instanceId}
  | .getAllInstances _ => ∅
  | .killUnhealth id reason current => (killOrder (some id) reason current).names

private theorem handler_within (rpc : Rpc) : rpc.handler.Within (fun c => c.names ⊆ rpc.names) := by
  cases rpc with
  | tryAddInstance request =>
    rcases tryAdd_handler request with ⟨a, _, ha⟩ | ⟨x, t, hx, _, hr⟩
    · rw [ha]
      exact True.intro
    · have hown : {x.instanceId} ⊆ request.names := Set.singleton_subset_iff.mpr (Or.inl hx)
      rw [hr]
      refine ⟨hown, fun inserted => ?_⟩
      cases inserted with
      | false => exact True.intro
      | true =>
        refine ⟨fun y hy => hy, fun r => ?_⟩
        rcases r with _ | _ | _
        · exact ⟨hown, fun _ => True.intro⟩
        · exact ⟨hown, fun _ => True.intro⟩
        · exact True.intro
  | tryUpdateInstanceDescription request =>
    simp only [Rpc.handler, Manager.tryUpdateInstanceDescription]
    split
    · exact ⟨fun y hy => hy, fun _ => True.intro⟩
    · exact True.intro
  | postInstanceDescription request =>
    simp only [Rpc.handler, Manager.postInstanceDescription]
    split
    · exact ⟨fun y hy => hy, fun _ => True.intro⟩
    · exact True.intro
  | getInstance id => exact ⟨fun y hy => hy, fun _ => True.intro⟩
  | getAllInstances query => exact ⟨fun y hy => hy, fun _ => True.intro⟩
  | killUnhealth id reason current => exact ⟨fun y hy => hy, fun _ => True.intro⟩

/-- No request refers to an id that another one registers. -/
def Separate (requests : ι → Rpc) : Prop :=
  ∀ i j request, i ≠ j → requests j = .tryAddInstance request → ∀ id, request.instanceId = some id →
    id.instanceId ∉ (requests i).names

theorem Separate.undisturbed (hsep : Separate requests)
    (h : (clients requests).Reaches (fun _ _ => True) (.initial s) cfg) :
    (clients requests).Reaches (Undisturbed requests) (.initial s) cfg := by
  refine h.guard ?_
  intro a l b hreach hstep
  cases hstep with
  | start i hi => exact True.intro
  | environment henv => exact True.intro
  | call i hi served =>
    have hwithin := hreach.within (fun i => handler_within (requests i)) i _ hi
    intro x hx j hj hreg
    obtain ⟨request, id, _, _, hadds, hid, rfl, _⟩ := hreg
    exact hsep i j request hj.symm hadds id hid (hwithin.1 hx)

end separate

/-- A browser, registered before either request arrives. -/
def registeredChrome : List (TimestampMs × Rpc) :=
  [(⟨1000⟩, .tryAddInstance
      { instanceId := some ⟨"chrome"⟩, instanceType := some InstanceType.chromeBrowser.toI32 })]

/-- A heartbeat of the browser while an agent registers on its own. -/
def agentAndHeartbeat : Bool → Rpc
  | false => .tryAddInstance
      { instanceId := some ⟨"agent"⟩, instanceType := some InstanceType.agent.toI32 }
  | true => .tryUpdateInstanceDescription
      { instanceId := some ⟨"chrome"⟩, healthCheck := some {} }

private theorem agentAndHeartbeat_separate : Separate agentAndHeartbeat := by
  intro i j request hij hadds id hid
  cases j with
  | true => cases hadds
  | false =>
    obtain rfl : i = true := by simpa using hij
    cases hadds
    cases hid
    simp [Rpc.names, agentAndHeartbeat, InstanceDescription.names, InstanceDescription.childList]

/-- The heartbeat lands between the insertion of the agent's entry and its fields. -/
theorem undisturbed_atomic_agentAndHeartbeat :
    WellLinked ((clients agentAndHeartbeat).schedule (Section.execute (Stream'.const ⟨2000⟩))
      (.initial (replay ∅ registeredChrome)) [false, false, true, true, false]).state :=
  (undisturbed_atomic (Reachable.empty.replay registeredChrome)
    (agentAndHeartbeat_separate.undisturbed
      (System.reaches_schedule (serves_execute (Stream'.const ⟨2000⟩)) _ _))).2.1

/-- An agent registers under a parent that does not exist while the browser attaches to it. -/
def ghostParent : Bool → Rpc
  | false => .tryAddInstance
      { instanceId := some ⟨"agent"⟩, instanceType := some InstanceType.agent.toI32,
        parent := some { instanceId := some ⟨"ghost"⟩ } }
  | true => .tryUpdateInstanceDescription
      { instanceId := some ⟨"chrome"⟩, parent := some { instanceId := some ⟨"agent"⟩ } }

/-- The browser's request runs between the insertion of the agent's entry and its removal. -/
def attachedToGhost : ClientConfig Bool :=
  (clients ghostParent).schedule (Section.execute (Stream'.const ⟨2000⟩))
    (.initial (replay ∅ registeredChrome)) [false, false, true, true, false, false]

/-- The browser is told that it is attached to an agent that is then removed: no order of the two
requests leaves such a store, whatever the times. -/
theorem attachedToGhost_not_serializable :
    (clients ghostParent).Reaches (fun _ _ => True) (.initial (replay ∅ registeredChrome))
        attachedToGhost ∧ Reachable (replay ∅ registeredChrome) ∧
      attachedToGhost.finished false (.bool (.error (.notFound "Parent instance not found"))) ∧
      attachedToGhost.finished true (.bool (.ok true)) ∧
      HasParent attachedToGhost.state "chrome" "agent" ∧ "agent" ∉ attachedToGhost.state ∧
      ∀ history u, (clients ghostParent).Serial (replay ∅ registeredChrome) history u →
        ¬ SameButTimes attachedToGhost.state u := by
  have hparent : HasParent attachedToGhost.state "chrome" "agent" := by decide +kernel
  have hagent : "agent" ∉ attachedToGhost.state := by decide +kernel
  have hreach : Reachable (replay ∅ registeredChrome) := Reachable.empty.replay registeredChrome
  refine ⟨System.reaches_schedule (serves_execute (Stream'.const ⟨2000⟩)) _ _, hreach,
    by decide +kernel, by decide +kernel, hparent, hagent, ?_⟩
  intro history u hserial hsame
  have hu := serial_consistent hreach.consistent hserial
  obtain ⟨d, hd, r, hr, ht⟩ := hsame.hasParent hparent
  obtain ⟨p, hp, hmem, _⟩ := hu.parent hd hr
  obtain rfl : "agent" = p := Option.some.inj (ht.symm.trans hp)
  exact hagent ((hsame.mem_iff "agent").mpr hmem)

end WayPoint.Manager
