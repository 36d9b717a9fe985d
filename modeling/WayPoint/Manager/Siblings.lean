import WayPoint.Manager.Forest

/-! Whether a children list may name one instance twice. The check that a child has no parent is
made for all entries of a request before any of them is linked. -/
namespace WayPoint.Manager
open Foundations SetTimestamp

variable {s s' base : InnerService} {clock : Clock} {x : InstanceId} {request : InstanceDescription}

/-- The ids in a children list, in order. -/
def InstanceDescription.childIds (d : InstanceDescription) : List String :=
  d.childList.filterMap Relationship.target

def DistinctChildren (s : InnerService) : Prop :=
  ∀ x d, s.lookup x = some d → d.childIds.Nodup

instance (s : InnerService) : Decidable (DistinctChildren s) :=
  inferInstanceAs (Decidable (∀ x d, s.lookup x = some d → _))

/-- The children a carried-out request adds are listed once each. -/
def NamesChildrenOnce (e : ServedRpc) : Prop :=
  ∀ base x request, e.call.Carries e.before base x request → request.childIds.Nodup

private theorem mem_childIds {d : InstanceDescription} {c : String} :
    c ∈ d.childIds ↔ ∃ r ∈ d.childList, r.target = some c := by
  simp only [InstanceDescription.childIds, List.mem_filterMap]

/-- New children come after the old ones, under the ids the update gave. -/
theorem Updated.childIds {v d d' : InstanceDescription} (h : Updated clock v d d') :
    d'.childIds = d.childIds ++ v.childIds := by
  have hmap (d : InstanceDescription) :
      d.childIds = (d.childList.map Relationship.target).filterMap id := by
    rw [InstanceDescription.childIds, List.filterMap_map]
    rfl
  rw [hmap, hmap, hmap, h.childList_map (fun _ _ => rfl), List.filterMap_append]

private theorem incoming_childIds_nodup (hnodup : request.childIds.Nodup) (y : String) :
    (incoming x request y).childIds.Nodup := by
  by_cases hy : y = x.instanceId
  · rw [hy, incoming_self]
    exact hnodup
  · rw [incoming_other hy]
    by_cases hp : request.parent.bind Relationship.target = some y
    · simp [InstanceDescription.childIds, InstanceDescription.childList, hp, backLink,
        Relationship.target]
    · simp [InstanceDescription.childIds, InstanceDescription.childList, hp]

/-- A child that is added had no parent, so by the agreement of links it was on no list before. -/
theorem Applied.distinctChildren (h : Applied clock x request s s') (hs : Consistent s)
    (ha : Accepts s x request) :
    DistinctChildren s' ↔ DistinctChildren s ∧ request.childIds.Nodup := by
  constructor
  · intro hdistinct
    constructor
    · intro y d hd
      obtain ⟨d', hd', he⟩ := h.effect.present hd
      have hnodup := hdistinct y d' hd'
      rw [he.toUpdated.childIds] at hnodup
      exact hnodup.of_append_left
    · obtain ⟨d, hd, _⟩ := ha.alive
      obtain ⟨d', hd', he⟩ := h.effect.present hd
      have hnodup := hdistinct _ d' hd'
      rw [he.toUpdated.childIds, incoming_self] at hnodup
      exact hnodup.of_append_right
  · intro hboth y d' hd'
    obtain ⟨hdistinct, hnodup⟩ := hboth
    obtain ⟨d, hd, he⟩ := h.effect.back hd'
    rw [he.toUpdated.childIds, List.nodup_append']
    refine ⟨hdistinct y d hd, incoming_childIds_nodup hnodup y, fun c hold hnew => ?_⟩
    have hchild : HasChild s y c := (hasChild_iff hd).mpr (mem_childIds.mp hold)
    have hlink : NewLink x request c y :=
      (incoming_child_target ha.linkable y c).mp (mem_childIds.mp hnew)
    exact hlink.orphan ha y ((hs.agree c y).mpr hchild)

theorem Rpc.Base.distinctChildren {rpc : Rpc} (h : rpc.Base s base) :
    DistinctChildren base ↔ DistinctChildren s := by
  cases h with
  | @registering request x t now _ _ fresh =>
    constructor
    · intro hdistinct y d hd
      refine hdistinct y d ((lookup_blank_ne ?_).trans hd)
      rintro rfl
      rw [fresh] at hd
      cases hd
    · intro hdistinct y d hd
      rw [FiniteMap.lookup_insert_eq] at hd
      split at hd
      · cases hd
        exact List.nodup_nil
      · exact hdistinct y d hd
  | found => exact Iff.rfl

private theorem distinctChildren_step {rpc : Rpc} {answer : Answer} (hs : Consistent s)
    (hdistinct : DistinctChildren s) (h : whole rpc s answer s') :
    DistinctChildren s' ↔ NamesChildrenOnce ⟨rpc, s, answer, s'⟩ := by
  cases rpc_outcome hs h with
  | refused refuses _ same =>
    subst same
    constructor
    · exact fun _ base x request hc => absurd hc (refuses base x request)
    · exact fun _ => hdistinct
  | carried hc ha _ =>
    rw [ha.distinctChildren (hc.starts.consistent hs) hc.accepted.toAccepts,
      hc.starts.distinctChildren, and_iff_right hdistinct]
    constructor
    · intro hnodup base' x' request' hc'
      obtain ⟨rfl, rfl⟩ := hc.unique hc'
      exact hnodup
    · exact fun honce => honce _ _ _ hc

/-- In every run the children lists stay free of duplicates exactly as long as no request that is
carried out lists a child twice. -/
theorem distinctChildren_iff {past : List ServedRpc} (h : Trace whole ∅ past s) :
    (∀ e ∈ past, DistinctChildren e.after) ↔ ∀ e ∈ past, NamesChildrenOnce e :=
  h.forall_iff empty_consistent (by simp [DistinctChildren])
    (fun _ _ _ _ hs hserve => whole_consistent hs hserve)
    (fun _ _ _ _ hs hdistinct hserve => distinctChildren_step hs hdistinct hserve)
    (fun _ hafter => hafter)

/-- A proxy adopts two browsers, each in its own request. -/
def twoBrowsers : List Rpc :=
  [registers "proxy" .warmpoolChromeProxy, registers "first" .chromeBrowser,
    registers "second" .chromeBrowser,
    .tryUpdateInstanceDescription
      { instanceId := some ⟨"proxy"⟩, children := some ⟨[{ instanceId := some ⟨"first"⟩ }]⟩ },
    .tryUpdateInstanceDescription
      { instanceId := some ⟨"second"⟩, parent := some { instanceId := some ⟨"proxy"⟩ } }]

theorem distinctChildren_iff_twoBrowsers :
    DistinctChildren (session ⟨1000⟩ twoBrowsers).2 := by
  have honce : ∀ e ∈ (session ⟨1000⟩ twoBrowsers).1, ∀ request ∈ e.call.update,
      request.childIds.Nodup := by decide +kernel
  exact (distinctChildren_iff (trace_session ⟨1000⟩ twoBrowsers)).mpr
    (fun e he base x request hc => honce e he request hc.update) _ List.mem_cons_self

/-- One request lists a browser twice, and both entries pass the check. -/
def sameBrowserTwice : List Rpc :=
  [registers "proxy" .warmpoolChromeProxy, registers "chrome" .chromeBrowser,
    .tryUpdateInstanceDescription
      { instanceId := some ⟨"proxy"⟩
        children := some ⟨[{ instanceId := some ⟨"chrome"⟩ }, { instanceId := some ⟨"chrome"⟩ }]⟩ }]

theorem not_distinctChildren_sameBrowserTwice :
    Trace whole ∅ (session ⟨1000⟩ sameBrowserTwice).1 (session ⟨1000⟩ sameBrowserTwice).2 ∧
      ¬ DistinctChildren (session ⟨1000⟩ sameBrowserTwice).2 :=
  ⟨trace_session _ _, by decide +kernel⟩

end WayPoint.Manager
