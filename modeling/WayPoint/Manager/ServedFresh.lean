import WayPoint.Manager.Lifetime
import WayPoint.Manager.Work

/-! What a listing shows right after a pass of the kill loop, and for which types it shows no
instance that has fallen silent. -/
namespace WayPoint.Manager
open Foundations Program

variable {s s' : InnerService} {t : TimestampMs} {q : InstanceType} {x : String}

/-- Created more than a minute ago, and last heard of more than five seconds ago. -/
def Stale (d : InstanceDescription) (t : TimestampMs) : Prop :=
  ∃ created ∈ d.createdTimestampMs, 60 * 1000 < elapsedMs t created ∧
    ∃ last ∈ d.healthCheck.bind HealthCheck.timestampMs, 5 * 1000 < elapsedMs t last

instance (d : InstanceDescription) (t : TimestampMs) : Decidable (Stale d t) :=
  inferInstanceAs (Decidable (∃ created ∈ d.createdTimestampMs, _ ∧
    ∃ last ∈ d.healthCheck.bind HealthCheck.timestampMs, _ < elapsedMs t last))

/-- Whatever a pass at `t` leaves, a listing of the type shows the live instances of the type that
have sent a heartbeat, all of them and nothing else, and none that is stale. -/
def ServedFresh (s : InnerService) (t : TimestampMs) (q : InstanceType) : Prop :=
  ∀ s' u ids, Runs serves s (killUnhealthInstancesAt t) () s' →
    serves (.getAll { instanceType := q.toI32 }) s' ids u →
    (∀ x, ⟨x⟩ ∈ ids ↔ ∃ d, s'.lookup x = some d ∧ d.killInstanceRequest = none ∧ d.isType q ∧
      d.healthCheck.isSome) ∧
    ∀ x d, ⟨x⟩ ∈ ids → s'.lookup x = some d → ¬ Stale d t

/-- The types the health verdict has an arm for. -/
def InstanceType.monitored (q : InstanceType) : Prop :=
  q = .chromeBrowser ∨ q = .fakeInstance ∨ q = .agent

instance (q : InstanceType) : Decidable q.monitored :=
  inferInstanceAs (Decidable (_ ∨ _))

/-- Some live instance of the type is stale and does not die with an unhealthy ancestor. -/
def StaleSurvivor (s : InnerService) (t : TimestampMs) (q : InstanceType) : Prop :=
  ∃ x d, s.lookup x = some d ∧ d.killInstanceRequest = none ∧ d.isType q ∧ Stale d t ∧
    x ∉ reach (HasChild s) (condemned s t)

/-- A pass leaves the live entries outside the reach of the condemned as they are, and no others
alive. -/
theorem survivor_iff (hs : Consistent s) {a : Unit}
    (h : Runs serves s (killUnhealthInstancesAt t) a s') (d : InstanceDescription) :
    (s'.lookup x = some d ∧ d.killInstanceRequest = none) ↔
      s.lookup x = some d ∧ d.killInstanceRequest = none ∧
        x ∉ reach (HasChild s) (condemned s t) := by
  have hdead := dead_killPass hs h
  obtain ⟨_, hch, _⟩ := killUnhealthInstancesAt_run hs h
  constructor
  · intro hafter
    obtain ⟨hd', hk⟩ := hafter
    obtain ⟨d₀, hd, hkilled⟩ := hch.back hd'
    have hnot : x ∉ dead s' := Alive.notMem_dead ⟨d, hd', hk⟩
    rw [hdead] at hnot
    rcases hkilled with rfl | ⟨_, k, rfl⟩
    · exact ⟨hd, hk, fun hx => hnot (Or.inr hx)⟩
    · cases hk
  · intro hbefore
    obtain ⟨hd, hk, hreach⟩ := hbefore
    obtain ⟨d', hd', hkilled⟩ := hch.present hd
    have hnot : x ∉ dead s' := by
      rw [hdead]
      intro hx
      rcases hx with hx | hx
      · exact Alive.notMem_dead ⟨d, hd, hk⟩ hx
      · exact hreach hx
    have hsame : d' = d := hkilled.eq_of_same_life fun hk' => absurd ((mem_dead_iff hd').mpr hk') hnot
    exact ⟨hsame ▸ hd', hk⟩

/-- A stale instance has been silent for more than five seconds. -/
theorem Stale.silent {d : InstanceDescription} (h : Stale d t) : Silent d t := by
  intro created hc
  obtain ⟨_, _, _, last, hlast, hlate⟩ := h
  rw [lastActivity, Option.mem_def.mp hlast]
  exact hlate

/-- The verdict condemns every stale instance of a type it has an arm for. -/
theorem Stale.unhealthy {d : InstanceDescription} (h : Stale d t) (hq : q.monitored)
    (htype : d.isType q) (hd : d.Stamped)
    (hstamps : ∀ stamp ∈ d.timestamps, stamp.timestampMs.toNat ≤ t.timestampMs.toNat) :
    (unhealthInstance d t).isSome := by
  have hsilent := h.silent
  obtain ⟨created, hc, hgrace, _⟩ := h
  have hcreated := Option.mem_def.mp hc
  have hbrowser := (unhealthBrowser_isSome_iff hstamps hd hcreated).mpr (Or.inr (Or.inl hsilent))
  have hagent := (unhealthAgent_isSome_iff hstamps hcreated).mpr ⟨hgrace.le, hsilent⟩
  unfold unhealthInstance unhealthInstanceBy
  rcases hq with rfl | rfl | rfl
  · simpa only [show d.instanceType = _ from htype, hcreated, InstanceType.tryFrom_toI32] using hbrowser
  · simpa only [show d.instanceType = _ from htype, hcreated, InstanceType.tryFrom_toI32] using hbrowser
  · simpa only [show d.instanceType = _ from htype, hcreated, InstanceType.tryFrom_toI32] using hagent

/-- Of the types that the verdict has an arm for none is left. -/
theorem not_staleSurvivor (hs : Consistent s) (ht : StampedBefore s t) (hq : q.monitored) :
    ¬ StaleSurvivor s t q := by
  intro hsurvivor
  obtain ⟨x, d, hd, hk, htype, hstale, hreach⟩ := hsurvivor
  have hverdict := hstale.unhealthy hq htype (hs.stamped hd) (ht x d hd)
  exact hreach (subset_reach _ _ ⟨d, hd, hk, hverdict⟩)

/-- No stale instance is served exactly if there is none that the pass would leave alive. -/
theorem servedFresh_iff (h : Reachable s) (t : TimestampMs) (q : InstanceType) :
    ServedFresh s t q ↔ ¬ StaleSurvivor s t q := by
  have hs := h.consistent
  have htyped {d : InstanceDescription} {x : String} {s : InnerService} (hs : Consistent s)
      (hd : s.lookup x = some d) : d.instanceType.getD 0 = q.toI32 ↔ d.isType q := by
    obtain ⟨own, hown⟩ := hs.typed hd
    simp only [InstanceDescription.isType, hown, Option.getD_some, Option.some.injEq]
  have hlisted {s' u : InnerService} {ids : List InstanceId} {x : String}
      (hs' : Consistent s') (hserve : serves (.getAll { instanceType := q.toI32 }) s' ids u) :
      ⟨x⟩ ∈ ids ↔ ∃ d, s'.lookup x = some d ∧ d.killInstanceRequest = none ∧ d.isType q ∧
        d.healthCheck.isSome := by
    obtain ⟨clock, entries, he, hrun⟩ := hserve
    obtain ⟨rfl, _⟩ := Prod.mk.inj hrun
    rw [mem_getAllInstances hs'.named he]
    refine exists_congr fun d => and_congr_right fun hd => and_congr_right fun _ => ?_
    rw [htyped hs' hd]
  constructor
  · intro hfresh hsurvivor
    obtain ⟨x, d, hd, hk, htype, hstale, hreach⟩ := hsurvivor
    have hrun := runs_eval (serves_execute (Stream'.const t)) (killUnhealthInstancesAt t) s
    have hserve := serves_execute (Stream'.const t) (.getAll { instanceType := q.toI32 })
      ((killUnhealthInstancesAt t).eval (Section.execute (Stream'.const t)) s).2
    obtain ⟨hshown, hnone⟩ := hfresh _ _ _ hrun hserve
    have hd' := ((survivor_iff hs hrun d).mpr ⟨hd, hk, hreach⟩).1
    obtain ⟨_, _, _, last, hlast, _⟩ := id hstale
    obtain ⟨beat, hbeat, _⟩ := Option.bind_eq_some_iff.mp hlast
    exact hnone x d ((hshown x).mpr ⟨d, hd', hk, htype, by rw [hbeat]; rfl⟩) hd' hstale
  · intro hnot s' u ids hrun hserve
    have hs' := (killUnhealthInstancesAt_run hs hrun).1
    refine ⟨fun x => hlisted hs' hserve, fun x d hx hd hstale => ?_⟩
    obtain ⟨d', hd', hk, htype, _⟩ := (hlisted hs' hserve).mp hx
    rw [hd] at hd'
    cases hd'
    obtain ⟨hbefore, _, hreach⟩ := (survivor_iff hs hrun d).mp ⟨hd, hk⟩
    exact hnot ⟨x, d, hbefore, hk, htype, hstale, hreach⟩

theorem servedFresh_iff_silentAgent : ServedFresh (replay ∅ silentAgent) ⟨70000⟩ .agent :=
  (servedFresh_iff (Reachable.empty.replay silentAgent) ⟨70000⟩ .agent).mpr
    (not_staleSurvivor (Reachable.empty.replay silentAgent).consistent (by decide +kernel) (by decide))

/-- A proxy that has sent one heartbeat and then nothing for more than a minute. -/
def silentProxy : List (TimestampMs × Rpc) :=
  [(⟨1000⟩, .tryAddInstance
      { instanceId := some ⟨"proxy"⟩, instanceType := some InstanceType.warmpoolChromeProxy.toI32 }),
    (⟨2000⟩, .tryUpdateInstanceDescription
      { instanceId := some ⟨"proxy"⟩, healthCheck := some {} })]

/-- The pass leaves the proxy alone, and it is listed. -/
theorem not_servedFresh_silentProxy : Reachable (replay ∅ silentProxy) ∧
    StampedBefore (replay ∅ silentProxy) ⟨70000⟩ ∧
    ¬ ServedFresh (replay ∅ silentProxy) ⟨70000⟩ .warmpoolChromeProxy := by
  refine ⟨Reachable.empty.replay silentProxy, by decide +kernel, fun hfresh => ?_⟩
  have hnone := (hfresh _ _ _
    (runs_eval (serves_execute (Stream'.const ⟨70000⟩)) (killUnhealthInstancesAt ⟨70000⟩) _)
    (serves_execute (Stream'.const ⟨70000⟩) _ _)).2
  have hstale : ∃ d ∈ ((killUnhealthInstancesAt ⟨70000⟩).eval
      (Section.execute (Stream'.const ⟨70000⟩)) (replay ∅ silentProxy)).2.lookup "proxy",
      Stale d ⟨70000⟩ := by decide +kernel
  obtain ⟨d, hd, hold⟩ := hstale
  exact hnone "proxy" d (by decide +kernel) hd hold

end WayPoint.Manager
