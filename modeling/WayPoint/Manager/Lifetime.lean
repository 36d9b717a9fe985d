import WayPoint.Manager.Carried

/-! How long a monitored instance may live: what the limits promise, and when the health verdict
keeps that promise. -/
namespace WayPoint.Manager
open Foundations

variable {s : InnerService}

/-- Everything the server stamped in a description. -/
def InstanceDescription.timestamps (d : InstanceDescription) : List TimestampMs :=
  d.createdTimestampMs.toList ++ (d.killInstanceRequest.bind KillInstanceRequest.timestampMs).toList ++
    (d.services.bind Services.timestampMs).toList ++
    (d.parent.bind Relationship.timestampMs).toList ++
    d.childList.filterMap Relationship.timestampMs ++
    (d.healthCheck.bind HealthCheck.timestampMs).toList ++
    (d.proxyMetrics.bind ProxyMetrics.timestampMs).toList ++
    (d.systemMetrics.bind SystemMetrics.timestampMs).toList ++
    (d.gpuMetrics.bind GpuMetrics.timestampMs).toList ++
    (d.llmMetrics.bind LlmMetrics.timestampMs).toList

/-- No stored timestamp lies after `t`. -/
def StampedBefore (s : InnerService) (t : TimestampMs) : Prop :=
  ∀ x d, s.lookup x = some d → ∀ stamp ∈ d.timestamps, stamp.timestampMs.toNat ≤ t.timestampMs.toNat

instance (s : InnerService) (t : TimestampMs) : Decidable (StampedBefore s t) :=
  inferInstanceAs (Decidable (∀ x d, s.lookup x = some d → _))

/-- Milliseconds since an event, negative for a future one. -/
def elapsedMs (t event : TimestampMs) : Int := trueAge t.timestampMs event.timestampMs

def AttachedTooLong (d : InstanceDescription) (t : TimestampMs) : Prop :=
  ∃ r ∈ d.parent, ∀ since ∈ r.timestampMs, 60 * 60 * 1000 < elapsedMs t since

instance (d : InstanceDescription) (t : TimestampMs) : Decidable (AttachedTooLong d t) :=
  inferInstanceAs (Decidable (∃ r ∈ d.parent, ∀ since ∈ r.timestampMs, _ < elapsedMs t since))

/-- No heartbeat, or none since the registration, for more than five seconds. -/
def Silent (d : InstanceDescription) (t : TimestampMs) : Prop :=
  ∀ created ∈ d.createdTimestampMs, 5 * 1000 < elapsedMs t (lastActivity d created)

instance (d : InstanceDescription) (t : TimestampMs) : Decidable (Silent d t) :=
  inferInstanceAs (Decidable (∀ created ∈ d.createdTimestampMs, _))

def CreatedOverADayAgo (d : InstanceDescription) (t : TimestampMs) : Prop :=
  ∀ created ∈ d.createdTimestampMs, 24 * 60 * 60 * 1000 < elapsedMs t created

instance (d : InstanceDescription) (t : TimestampMs) : Decidable (CreatedOverADayAgo d t) :=
  inferInstanceAs (Decidable (∀ created ∈ d.createdTimestampMs, _))

def InstanceDescription.isType (d : InstanceDescription) (t : InstanceType) : Prop :=
  d.instanceType = some t.toI32

/-- What the limits say must end: an attached, silent or old browser, and an old agent. -/
def Overdue (d : InstanceDescription) (t : TimestampMs) : Prop :=
  (d.isType .chromeBrowser ∨ d.isType .fakeInstance) ∧
      (AttachedTooLong d t ∨ Silent d t ∨ CreatedOverADayAgo d t) ∨
    d.isType .agent ∧ CreatedOverADayAgo d t

instance (d : InstanceDescription) (t : InstanceType) : Decidable (d.isType t) :=
  inferInstanceAs (Decidable (_ = _))

instance (d : InstanceDescription) (t : TimestampMs) : Decidable (Overdue d t) :=
  inferInstanceAs (Decidable (_ ∨ _))

/-- Every live instance that is overdue is reported. -/
def BoundedLives (s : InnerService) (t : TimestampMs) : Prop :=
  ∀ x d, s.lookup x = some d → d.killInstanceRequest = none → Overdue d t →
    (unhealthInstance d t).isSome

instance (s : InnerService) (t : TimestampMs) : Decidable (BoundedLives s t) :=
  inferInstanceAs (Decidable (∀ x d, s.lookup x = some d → _ → _ → _))

/-- A live agent created over a day ago and not silent. -/
def ActiveOldAgent (d : InstanceDescription) (t : TimestampMs) : Prop :=
  d.killInstanceRequest = none ∧ d.isType .agent ∧ CreatedOverADayAgo d t ∧ ¬ Silent d t

instance (d : InstanceDescription) (t : TimestampMs) : Decidable (ActiveOldAgent d t) :=
  inferInstanceAs (Decidable (_ ∧ _ ∧ _ ∧ _))

private theorem above_iff_of_le {t event : TimestampMs}
    (h : event.timestampMs.toNat ≤ t.timestampMs.toNat) (limit : UInt64) :
    AgeTest.wrapping.above t event limit = true ↔ (limit.toNat : Int) < elapsedMs t event := by
  simp only [AgeTest.wrapping, decide_eq_true_eq, lt_sub_iff, elapsedMs]
  exact or_iff_left (not_looksOlder_of_le h limit)

private theorem below_iff_of_le {t event : TimestampMs}
    (h : event.timestampMs.toNat ≤ t.timestampMs.toNat) {limit : UInt64} (hl : 0 < limit.toNat) :
    AgeTest.wrapping.below t event limit = true ↔ elapsedMs t event < limit.toNat := by
  simp only [AgeTest.wrapping, decide_eq_true_eq, sub_lt_iff _ _ hl, elapsedMs]
  exact and_iff_left (not_looksOlder_of_le h _)

/-- Whatever the ages are computed with, a browser is reported when one of its limits is passed. -/
theorem unhealthBrowser_isSome (age : AgeTest) (d : InstanceDescription) (created t : TimestampMs) :
    (unhealthBrowser age d created t).isSome ↔ parentAbove age d t = true ∨
      age.above t (lastActivity d created) chromeBrowserTimeoutMs = true ∨
      age.above t created chromeBrowserMaxLifetimeMs = true := by
  unfold unhealthBrowser
  cases parentAbove age d t <;>
    cases age.above t (lastActivity d created) chromeBrowserTimeoutMs <;>
    cases age.above t created chromeBrowserMaxLifetimeMs <;> simp

/-- The last limit of an agent is never reached: whoever exceeds it is silent already. -/
theorem unhealthAgent_isSome {age : AgeTest} {d : InstanceDescription} {created t : TimestampMs}
    (hlife : age.above t (lastActivity d created) agentMaxLifetimeMs = true →
      age.above t (lastActivity d created) agentTimeoutMs = true) :
    (unhealthAgent age d created t).isSome ↔ ¬ age.below t created agentGracePeriodMs = true ∧
      age.above t (lastActivity d created) agentTimeoutMs = true := by
  unfold unhealthAgent
  cases age.below t created agentGracePeriodMs with
  | true => simp
  | false =>
    cases hs : age.above t (lastActivity d created) agentTimeoutMs with
    | true => simp
    | false =>
      cases hm : age.above t (lastActivity d created) agentMaxLifetimeMs with
      | true =>
        rw [hlife hm] at hs
        cases hs
      | false => simp

section verdict
variable {d : InstanceDescription} {t created : TimestampMs}
  (hstamps : ∀ stamp ∈ d.timestamps, stamp.timestampMs.toNat ≤ t.timestampMs.toNat)
include hstamps

private theorem lastActivity_le (hc : d.createdTimestampMs = some created) :
    (lastActivity d created).timestampMs.toNat ≤ t.timestampMs.toNat := by
  apply hstamps
  unfold lastActivity InstanceDescription.timestamps
  cases hh : d.healthCheck.bind HealthCheck.timestampMs with
  | none => simp [hc]
  | some stamp => simp

theorem parentAbove_iff (hd : d.Stamped) :
    parentAbove .wrapping d t = true ↔ AttachedTooLong d t := by
  rcases hp : d.parent with _ | ⟨_ | since, owner⟩
  · simp [parentAbove, AttachedTooLong, hp]
  · have := hd.parent _ (Option.mem_def.mpr hp)
    simp at this
  · have hle : since.timestampMs.toNat ≤ t.timestampMs.toNat := by
      apply hstamps
      simp [InstanceDescription.timestamps, hp]
    simp only [parentAbove, AttachedTooLong, hp, above_iff_of_le hle]
    simp [show chromeBrowserSessionLifetimeMs.toNat = 60 * 60 * 1000 by decide]

theorem silent_iff (hc : d.createdTimestampMs = some created) :
    AgeTest.wrapping.above t (lastActivity d created) chromeBrowserTimeoutMs = true ↔
      Silent d t := by
  rw [above_iff_of_le (lastActivity_le hstamps hc)]
  simp [Silent, hc, show chromeBrowserTimeoutMs.toNat = 5 * 1000 by decide]

private theorem created_le (hc : d.createdTimestampMs = some created) :
    created.timestampMs.toNat ≤ t.timestampMs.toNat := by
  apply hstamps
  simp [InstanceDescription.timestamps, hc]

theorem unhealthBrowser_isSome_iff (hd : d.Stamped) (hc : d.createdTimestampMs = some created) :
    (unhealthBrowser .wrapping d created t).isSome ↔
      AttachedTooLong d t ∨ Silent d t ∨ CreatedOverADayAgo d t := by
  have hday : AgeTest.wrapping.above t created chromeBrowserMaxLifetimeMs = true ↔
      CreatedOverADayAgo d t := by
    rw [above_iff_of_le (created_le hstamps hc)]
    simp [CreatedOverADayAgo, hc, show chromeBrowserMaxLifetimeMs.toNat = 24 * 60 * 60 * 1000 by decide]
  rw [unhealthBrowser_isSome, parentAbove_iff hstamps hd, silent_iff hstamps hc, hday]

theorem unhealthAgent_isSome_iff (hc : d.createdTimestampMs = some created) :
    (unhealthAgent .wrapping d created t).isSome ↔
      60 * 1000 ≤ elapsedMs t created ∧ Silent d t := by
  have hgrace : AgeTest.wrapping.below t created agentGracePeriodMs = true ↔
      ¬ 60 * 1000 ≤ elapsedMs t created := by
    rw [below_iff_of_le (created_le hstamps hc) (by decide)]
    simp [show agentGracePeriodMs.toNat = 60 * 1000 by decide]
  have hlife : AgeTest.wrapping.above t (lastActivity d created) agentMaxLifetimeMs = true →
      AgeTest.wrapping.above t (lastActivity d created) agentTimeoutMs = true := by
    rw [above_iff_of_le (lastActivity_le hstamps hc), above_iff_of_le (lastActivity_le hstamps hc)]
    intro h
    have hle : agentTimeoutMs.toNat ≤ agentMaxLifetimeMs.toNat := by decide
    omega
  have hsilent : AgeTest.wrapping.above t (lastActivity d created) agentTimeoutMs = true ↔
      Silent d t := silent_iff hstamps hc
  rw [unhealthAgent_isSome hlife, hgrace, not_not, hsilent]

end verdict

/-- The promise fails exactly for old agents that go on sending heartbeats. -/
theorem boundedLives_iff (h : Reachable s) {t : TimestampMs} (ht : StampedBefore s t) :
    BoundedLives s t ↔ ∀ x d, s.lookup x = some d → ¬ ActiveOldAgent d t := by
  have hs := h.consistent
  constructor
  · intro hlives x d hd hactiveOld
    obtain ⟨hk, htype, hold, hactive⟩ := hactiveOld
    obtain ⟨created, hc⟩ := Option.isSome_iff_exists.mp (hs.stamped hd).created
    have hv := hlives x d hd hk (Or.inr ⟨htype, hold⟩)
    rw [InstanceDescription.isType] at htype
    simp only [unhealthInstance, unhealthInstanceBy, htype, hc, InstanceType.tryFrom_toI32] at hv
    exact hactive ((unhealthAgent_isSome_iff (ht x d hd) hc).mp hv).2
  · intro hnone x d hd hk hover
    obtain ⟨created, hc⟩ := Option.isSome_iff_exists.mp (hs.stamped hd).created
    have hbrowser := unhealthBrowser_isSome_iff (ht x d hd) (hs.stamped hd) hc
    simp only [unhealthInstance, unhealthInstanceBy]
    rcases hover with ⟨htype | htype, hover⟩ | ⟨htype, hold⟩
    · simpa only [show d.instanceType = _ from htype, hc, InstanceType.tryFrom_toI32] using
        hbrowser.mpr hover
    · simpa only [show d.instanceType = _ from htype, hc, InstanceType.tryFrom_toI32] using
        hbrowser.mpr hover
    · have hsilent : Silent d t := by
        by_contra hactive
        exact hnone x d hd ⟨hk, htype, hold, hactive⟩
      have hgrace : 60 * 1000 ≤ elapsedMs t created := by
        have := hold created hc
        omega
      simpa only [show d.instanceType = _ from htype, hc, InstanceType.tryFrom_toI32] using
        (unhealthAgent_isSome_iff (ht x d hd) hc).mpr ⟨hgrace, hsilent⟩

/-- An agent registered a day and an hour ago whose last heartbeat is a second old. -/
def busyAgent : List (TimestampMs × Rpc) :=
  [(⟨1000⟩, .tryAddInstance
      { instanceId := some ⟨"agent"⟩, instanceType := some InstanceType.agent.toI32 }),
    (⟨90000000⟩, .tryUpdateInstanceDescription
      { instanceId := some ⟨"agent"⟩, healthCheck := some {} })]

theorem boundedLives_iff_busyAgent : BoundedLives (replay ∅ busyAgent) ⟨90006000⟩ :=
  (boundedLives_iff (Reachable.empty.replay busyAgent) (by decide +kernel)).mpr
    (by decide +kernel)

/-- However regularly it reports, the agent is never reported. -/
theorem not_boundedLives_busyAgent : Reachable (replay ∅ busyAgent) ∧
    StampedBefore (replay ∅ busyAgent) ⟨90001000⟩ ∧
    ¬ BoundedLives (replay ∅ busyAgent) ⟨90001000⟩ :=
  ⟨Reachable.empty.replay busyAgent, by decide +kernel, by decide +kernel⟩

end WayPoint.Manager
