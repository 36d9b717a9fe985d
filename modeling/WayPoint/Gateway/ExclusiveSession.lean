import WayPoint.Foundations.Interleaving
import WayPoint.Gateway.Delivery

/-! Any number of `get_instance` calls against one manager over an unreliable network: no browser
is handed out twice, and whoever owns an instance keeps it. -/
namespace WayPoint.Gateway
open Foundations Manager Program ChromeWarmpoolProxyConfig

variable {s s' : InnerService}

/-- An update the client is told was carried out. -/
def Confirmed : (c : Remote) → c.Reply → Prop
  | .tryUpdateInstanceDescription _, .ok true => True
  | _, _ => False

/-- The program only ever returns an instance right after its own claim of it was confirmed. -/
def Honest (config : ChromeWarmpoolProxyConfig) :
    Program Remote.Reply (Except Error InstanceDescription) → Prop
  | .done a => ∀ d, a ≠ .ok d
  | .call c next => ∀ r, Credible c r → Honest config (next r) ∨
      ∃ x d, c = .tryUpdateInstanceDescription (config.claimRequest x) ∧ Confirmed c r ∧
        next r = .done (.ok d) ∧ d.instanceId = some x

private theorem honest_claimFirst (config : ChromeWarmpoolProxyConfig) (ids : List InstanceId) :
    Honest config (config.claimFirst ids).run := by
  induction ids with
  | nil =>
    intro d
    exact nofun
  | cons x rest ih =>
    rw [claimFirst, run_remote_bind]
    rintro (_ | d) hd
    · exact Or.inl ih
    · left
      simp only []
      split
      · exact ih
      · rw [run_remote_bind]
        intro now _
        left
        simp only []
        split
        · rw [run_remote_bind]
          rintro (_ | _ | _) _
          · exact Or.inl ih
          · exact Or.inl ih
          · exact Or.inr ⟨x, d, rfl, trivial, rfl, hd⟩
        · exact ih

private theorem honest_getInstance (config : ChromeWarmpoolProxyConfig) :
    Honest config config.getInstance.run := by
  rw [getInstance, run_remote_bind]
  rintro (_ | ids) _
  · left
    intro d
    exact nofun
  · exact Or.inl (honest_claimFirst config ids)

/-- A confirmed claim found the instance without a parent and attached it. -/
theorem claim_attaches (hs : Consistent s) {config : ChromeWarmpoolProxyConfig} {x : InstanceId}
    {r : Except Status Bool} (hr : r = .ok true)
    (h : delivers (.tryUpdateInstanceDescription (config.claimRequest x)) s r s') :
    (∀ p, ¬ HasParent s x.instanceId p) ∧ HasParent s' x.instanceId config.instanceId.instanceId := by
  subst hr
  cases h with
  | delivered run =>
    obtain ⟨y, clock, hy, ha⟩ := tryUpdate_true hs run
    obtain rfl : x = y := Option.some.inj hy.instanceId
    have hnew : NewLink x (config.claimRequest x) x.instanceId config.instanceId.instanceId :=
      Or.inl ⟨rfl, rfl⟩
    exact ⟨hnew.orphan hy.toAccepts, (ha.hasParent _ _).mpr (Or.inr hnew)⟩

section system
variable {ι : Type}

/-- Proxies that run `get_instance` calls, with all other clients around them. -/
def getInstanceCalls (proxy : ι → ChromeWarmpoolProxyConfig) :
    System ι Remote.Reply InnerService (Except Error InstanceDescription) where
  program i := (proxy i).getInstance.run
  serves := delivers
  environment := Interference

abbrev SessionConfig (ι : Type) :=
  Config ι Remote.Reply InnerService (Except Error InstanceDescription)

/-- Every thread is honest or has a browser its proxy owns, and no two have the same. -/
structure Exclusive (proxy : ι → ChromeWarmpoolProxyConfig) (cfg : SessionConfig ι) : Prop where
  consistent : Consistent cfg.state
  honest : ∀ i p, cfg.thread i = some p → Honest (proxy i) p ∨ ∃ d x, p = .done (.ok d) ∧
    d.instanceId = some x ∧ HasParent cfg.state x.instanceId (proxy i).instanceId.instanceId
  apart : ∀ i j d e, cfg.finished i (.ok d) → cfg.finished j (.ok e) →
    d.instanceId = e.instanceId → i = j

variable {proxy : ι → ChromeWarmpoolProxyConfig}

private theorem initial_exclusive (hs : Consistent s) :
    Exclusive proxy (.initial s : SessionConfig ι) where
  consistent := hs
  honest i p h := by cases h
  apart i j d e h := by cases h

/-- What finished threads hold stays theirs while the store advances. -/
theorem Exclusive.advance {cfg : SessionConfig ι} (h : Exclusive proxy cfg)
    (hs : Advances cfg.state s' h.consistent) : Exclusive proxy { cfg with state := s' } where
  consistent := hs.1
  honest i p hp := (h.honest i p hp).imp id fun ⟨d, x, hd, hx, hpar⟩ =>
    ⟨d, x, hd, hx, hs.hasParent hpar⟩
  apart := h.apart

theorem Exclusive.held {cfg : SessionConfig ι} (h : Exclusive proxy cfg) {i : ι}
    {d : InstanceDescription} (hi : cfg.finished i (.ok d)) : ∃ x, d.instanceId = some x ∧
      HasParent cfg.state x.instanceId (proxy i).instanceId.instanceId := by
  rcases h.honest i _ hi with hh | ⟨e, x, he, hx, hpar⟩
  · exact absurd rfl (hh d)
  · cases he
    exact ⟨x, hx, hpar⟩

variable [DecidableEq ι]

/-- A thread that goes on honestly breaks nothing. -/
theorem Exclusive.run_honest {cfg : SessionConfig ι} (h : Exclusive proxy cfg) {i : ι}
    {p : Program Remote.Reply (Except Error InstanceDescription)} (hp : Honest (proxy i) p) :
    Exclusive proxy (cfg.run i p) := by
  have hold {j : ι} {d : InstanceDescription} (hj : (cfg.run i p).finished j (.ok d)) :
      cfg.finished j (.ok d) := by
    by_cases hji : j = i
    · subst hji
      rw [Config.finished, Config.run_thread_self] at hj
      cases hj
      exact absurd rfl (hp d)
    · rwa [Config.finished, Config.run_thread_of_ne hji] at hj
  refine ⟨h.consistent, fun j q hq => ?_, fun j k d e hj hk => h.apart j k d e (hold hj) (hold hk)⟩
  by_cases hji : j = i
  · subst hji
    rw [Config.run_thread_self] at hq
    cases hq
    exact Or.inl hp
  · rw [Config.run_thread_of_ne hji] at hq
    exact h.honest j q hq

/-- A thread that returns an instance nobody owned before is the only one to hold it. -/
theorem Exclusive.run_claimed {cfg : SessionConfig ι} (h : Exclusive proxy cfg)
    (hs : Advances cfg.state s' h.consistent) {i : ι} {d : InstanceDescription} {x : InstanceId}
    (hx : d.instanceId = some x) (hfree : ∀ q, ¬ HasParent cfg.state x.instanceId q)
    (hpar : HasParent s' x.instanceId (proxy i).instanceId.instanceId) :
    Exclusive proxy (Config.run { cfg with state := s' } i (.done (.ok d))) := by
  have hother {j : ι} {e : InstanceDescription} (hji : j ≠ i)
      (hj : (Config.run { cfg with state := s' } i (.done (.ok d))).finished j (.ok e)) :
      cfg.finished j (.ok e) := by
    rwa [Config.finished, Config.run_thread_of_ne hji] at hj
  have hself {e : InstanceDescription}
      (hj : (Config.run { cfg with state := s' } i (.done (.ok d))).finished i (.ok e)) : e = d := by
    rw [Config.finished, Config.run_thread_self] at hj
    cases hj
    rfl
  have hnew {j : ι} {e : InstanceDescription} (hj : cfg.finished j (.ok e)) :
      e.instanceId ≠ d.instanceId := by
    obtain ⟨y, hy, hypar⟩ := h.held hj
    rw [hx, hy]
    intro he
    cases he
    exact hfree _ hypar
  refine ⟨hs.1, fun j q hq => ?_, fun j k e f hj hk hid => ?_⟩
  · by_cases hji : j = i
    · subst hji
      rw [Config.run_thread_self] at hq
      cases hq
      exact Or.inr ⟨d, x, rfl, hx, hpar⟩
    · rw [Config.run_thread_of_ne hji] at hq
      exact (h.advance hs).honest j q hq
  · by_cases hji : j = i <;> by_cases hki : k = i
    · rw [hji, hki]
    · subst hji
      rw [hself hj] at hid
      exact absurd hid.symm (hnew (hother hki hk))
    · subst hki
      rw [hself hk] at hid
      exact absurd hid (hnew (hother hji hj))
    · exact h.apart j k e f (hother hji hj) (hother hki hk) hid

theorem Exclusive.step {cfg cfg' : SessionConfig ι} {l : Label ι Remote} (h : Exclusive proxy cfg)
    (hstep : (getInstanceCalls proxy).Step cfg l cfg') : Exclusive proxy cfg' := by
  cases hstep with
  | start i hi => exact h.run_honest (honest_getInstance (proxy i))
  | @call i c next r s' hi served =>
    have hs := delivers_advances h.consistent served
    have hcredible := delivers_credible h.consistent.named served
    rcases h.honest i _ hi with hh | ⟨_, _, hd, _⟩
    · rcases hh r hcredible with hnext | ⟨x, d, rfl, hconf, hnext, hx⟩
      · exact (h.advance hs).run_honest hnext
      · have hr : r = .ok true := by
          rcases r with _ | _ | _
          · exact absurd hconf id
          · exact absurd hconf id
          · rfl
        obtain ⟨hfree, hpar⟩ := claim_attaches h.consistent hr served
        rw [hnext]
        exact h.run_claimed hs hx hfree hpar
    · cases hd
  | @environment s' henv => exact h.advance (Interference.advances h.consistent henv)

private theorem parent_kept_step {cfg cfg' : SessionConfig ι} {l : Label ι Remote}
    (hs : Consistent cfg.state) (hstep : (getInstanceCalls proxy).Step cfg l cfg') {c p : String}
    (hp : HasParent cfg.state c p) : HasParent cfg'.state c p := by
  cases hstep with
  | start i hi => exact hp
  | call i hi served => exact (delivers_advances hs served).hasParent hp
  | environment henv => exact (Interference.advances hs henv).hasParent hp

/-- No browser is returned twice, every returned one belongs to the proxy that got it, and no
parent is ever replaced or cleared. -/
theorem exclusive_session (proxy : ι → ChromeWarmpoolProxyConfig) (hs : Reachable s)
    {cfg cfg' : SessionConfig ι}
    (h : (getInstanceCalls proxy).Reaches (fun _ _ => True) (.initial s) cfg)
    (h' : (getInstanceCalls proxy).Reaches (fun _ _ => True) cfg cfg') :
    (∀ i j d e, cfg.finished i (.ok d) → cfg.finished j (.ok e) →
      d.instanceId = e.instanceId → i = j) ∧
    (∀ i d, cfg.finished i (.ok d) → ∃ x, d.instanceId = some x ∧
      HasParent cfg.state x.instanceId (proxy i).instanceId.instanceId) ∧
    ∀ c p, HasParent cfg.state c p →
      HasParent cfg'.state c p ∧ ∀ q, HasParent cfg'.state c q → q = p := by
  have hexcl : Exclusive proxy cfg :=
    h.invariant (initial_exclusive hs.consistent) (fun _ _ _ hi _ hstep => hi.step hstep)
  refine ⟨hexcl.apart, fun i d hi => hexcl.held hi, fun c p hp => ?_⟩
  have hkept : Exclusive proxy cfg' ∧ HasParent cfg'.state c p :=
    h'.invariant (I := fun cfg => Exclusive proxy cfg ∧ HasParent cfg.state c p) ⟨hexcl, hp⟩
      (fun _ _ _ hi _ hstep => ⟨hi.1.step hstep, parent_kept_step hi.1.consistent hstep hi.2⟩)
  exact ⟨hkept.2, fun q hq => hq.unique hkept.2⟩

end system

/-- Two proxies and one browser that has just reported. -/
def oneBrowser : List (TimestampMs × Rpc) :=
  [(⟨1000⟩, .tryAddInstance
      { instanceId := some ⟨"proxy-a"⟩, instanceType := some InstanceType.warmpoolChromeProxy.toI32 }),
    (⟨1000⟩, .tryAddInstance
      { instanceId := some ⟨"proxy-b"⟩, instanceType := some InstanceType.warmpoolChromeProxy.toI32 }),
    (⟨2000⟩, .tryAddInstance
      { instanceId := some ⟨"chrome"⟩, instanceType := some InstanceType.chromeBrowser.toI32 }),
    (⟨9000⟩, .tryUpdateInstanceDescription { instanceId := some ⟨"chrome"⟩, healthCheck := some {} })]

/-- Both proxies list and read the browser before either claims it; `proxy-a` wins. -/
theorem exclusive_session_oneBrowser :
    let proxy : Bool → ChromeWarmpoolProxyConfig :=
      fun i => ⟨if i then ⟨"proxy-a"⟩ else ⟨"proxy-b"⟩, .CDP⟩
    let race := (getInstanceCalls proxy).schedule (Remote.execute ⟨9500⟩)
      (.initial (replay ∅ oneBrowser)) [true, false, true, false, true, false, true, false, true]
    HasParent ((getInstanceCalls proxy).schedule (Remote.execute ⟨9500⟩) race [false]).state
      "chrome" "proxy-a" := by
  intro proxy race
  have hclaimed : HasParent race.state "chrome" "proxy-a" := by decide +kernel
  exact ((exclusive_session proxy (Reachable.empty.replay oneBrowser)
    (System.reaches_schedule (delivers_execute ⟨9500⟩) _ _)
    (System.reaches_schedule (delivers_execute ⟨9500⟩) race [false])).2.2 _ _ hclaimed).1

end WayPoint.Gateway
