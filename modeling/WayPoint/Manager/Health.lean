import WayPoint.Foundations.UnsignedAge
import WayPoint.Manager.Messages

/-! The health verdict (`unhealth_instance`), with the arithmetic of its ages as a parameter:
the release build subtracts modulo 2^64, the specification compares true ages. -/
namespace WayPoint.Manager
open Foundations

def oneHourMs : UInt64 := 60 * 60 * 1000
def chromeBrowserTimeoutMs : UInt64 := 5 * 1000
def chromeBrowserSessionLifetimeMs : UInt64 := oneHourMs
def chromeBrowserMaxLifetimeMs : UInt64 := 24 * oneHourMs
def agentGracePeriodMs : UInt64 := 60 * 1000
def agentTimeoutMs : UInt64 := 5 * 1000
def agentMaxLifetimeMs : UInt64 := oneHourMs * 24

/-- The two comparisons made of `current - event`: above a limit, and below one. -/
structure AgeTest where
  above : (current event : TimestampMs) → (limit : UInt64) → Bool
  below : (current event : TimestampMs) → (limit : UInt64) → Bool

/-- `current.timestamp_ms - event.timestamp_ms` on u64 without overflow checks. -/
def AgeTest.wrapping : AgeTest where
  above current event limit := decide (limit < current.timestampMs - event.timestampMs)
  below current event limit := decide (current.timestampMs - event.timestampMs < limit)

def AgeTest.exact : AgeTest where
  above current event limit :=
    decide ((limit.toNat : Int) < trueAge current.timestampMs event.timestampMs)
  below current event limit :=
    decide (trueAge current.timestampMs event.timestampMs < limit.toNat)

/-- The last heartbeat, or the registration when there was none. -/
def lastActivity (d : InstanceDescription) (created : TimestampMs) : TimestampMs :=
  (d.healthCheck.bind HealthCheck.timestampMs).getD created

/-- The guard on `instance_description.parent` with its timestamp pattern. -/
def parentAbove (age : AgeTest) (d : InstanceDescription) (current : TimestampMs) : Bool :=
  match d.parent with
  | some { timestampMs := some since, .. } => age.above current since chromeBrowserSessionLifetimeMs
  | _ => false

def unhealthBrowser (age : AgeTest) (d : InstanceDescription) (created current : TimestampMs) :
    Option KillReason :=
  if parentAbove age d current then some .timeout
  else if age.above current (lastActivity d created) chromeBrowserTimeoutMs then
    some .healthCheckFailed
  else if age.above current created chromeBrowserMaxLifetimeMs then some .killed
  else none

def unhealthAgent (age : AgeTest) (d : InstanceDescription) (created current : TimestampMs) :
    Option KillReason :=
  if age.below current created agentGracePeriodMs then none
  else if age.above current (lastActivity d created) agentTimeoutMs then some .healthCheckFailed
  else if age.above current (lastActivity d created) agentMaxLifetimeMs then some .timeout
  else none

def unhealthInstanceBy (age : AgeTest) (d : InstanceDescription) (current : TimestampMs) :
    Option KillReason :=
  match d.instanceType, d.createdTimestampMs with
  | some instanceType, some created =>
    match InstanceType.tryFrom instanceType with
    | some .chromeBrowser | some .fakeInstance => unhealthBrowser age d created current
    | some .agent => unhealthAgent age d created current
    | _ => none
  | _, _ => none

/-- `unhealth_instance` as the release build runs it. -/
def unhealthInstance : InstanceDescription → TimestampMs → Option KillReason :=
  unhealthInstanceBy .wrapping

/-- The same verdict on true integer ages. -/
def unhealthInstanceExact : InstanceDescription → TimestampMs → Option KillReason :=
  unhealthInstanceBy .exact

/-- The event is stamped later than the clock reads, and wrapping makes it look older than the
limit. -/
def Misjudged (current event : TimestampMs) (limit : UInt64) : Prop :=
  LooksOlder current.timestampMs event.timestampMs limit

instance (current event : TimestampMs) (limit : UInt64) : Decidable (Misjudged current event limit) :=
  inferInstanceAs (Decidable (LooksOlder _ _ _))

/-- No guard that decides a browser's verdict meets a misjudged timestamp. A session over its
limit settles the verdict before the other two are looked at, a silence before the last. -/
def FairBrowser (d : InstanceDescription) (created current : TimestampMs) : Prop :=
  (∀ r ∈ d.parent, ∀ since ∈ r.timestampMs,
    ¬ Misjudged current since chromeBrowserSessionLifetimeMs) ∧
  (parentAbove .exact d current = true ∨
    ¬ Misjudged current (lastActivity d created) chromeBrowserTimeoutMs ∧
    (AgeTest.exact.above current (lastActivity d created) chromeBrowserTimeoutMs = true ∨
      ¬ Misjudged current created chromeBrowserMaxLifetimeMs))

/-- An agent past its grace period is judged by its last activity. One created after the clock
reading is only safe while that activity does not look silent either. -/
def FairAgent (d : InstanceDescription) (created current : TimestampMs) : Prop :=
  if AgeTest.exact.below current created agentGracePeriodMs then
    ¬ Misjudged current created (agentGracePeriodMs - 1) ∨
      AgeTest.exact.above current (lastActivity d created) agentTimeoutMs = false ∧
      ¬ Misjudged current (lastActivity d created) agentTimeoutMs
  else ¬ Misjudged current (lastActivity d created) agentTimeoutMs

def FairClock (d : InstanceDescription) (current : TimestampMs) : Prop :=
  ∀ instanceType ∈ d.instanceType, ∀ created ∈ d.createdTimestampMs,
    match InstanceType.tryFrom instanceType with
    | some .chromeBrowser | some .fakeInstance => FairBrowser d created current
    | some .agent => FairAgent d created current
    | _ => True

theorem Misjudged.not_above {current event : TimestampMs} {limit : UInt64}
    (h : Misjudged current event limit) (bound : UInt64) :
    AgeTest.exact.above current event bound = false := by
  have hlt := h.1
  apply decide_eq_false
  unfold trueAge
  omega

theorem Misjudged.mono {current event : TimestampMs} {small limit : UInt64}
    (hle : small.toNat ≤ limit.toNat) (h : Misjudged current event limit) :
    Misjudged current event small := by
  obtain ⟨hlt, hw⟩ := h
  exact ⟨hlt, by omega⟩

theorem AgeTest.exact_above_mono {current event : TimestampMs} {small limit : UInt64}
    (hle : small.toNat ≤ limit.toNat) (h : AgeTest.exact.above current event limit = true) :
    AgeTest.exact.above current event small = true := by
  simp only [AgeTest.exact, decide_eq_true_eq] at h ⊢
  omega

/-- A misjudged event is above the limit only modulo 2^64; any other is judged alike. -/
theorem AgeTest.above_cases (current event : TimestampMs) (limit : UInt64) :
    (Misjudged current event limit ∧ AgeTest.wrapping.above current event limit = true ∧
      AgeTest.exact.above current event limit = false) ∨
    (¬ Misjudged current event limit ∧
      AgeTest.wrapping.above current event limit = AgeTest.exact.above current event limit) := by
  by_cases h : Misjudged current event limit
  · left
    exact ⟨h, decide_eq_true ((lt_sub_iff _ _ _).mpr (Or.inr h)), h.not_above limit⟩
  · right
    refine ⟨h, decide_eq_decide.mpr ?_⟩
    rw [lt_sub_iff]
    exact or_iff_left h

theorem AgeTest.below_cases (current event : TimestampMs) {limit : UInt64}
    (hl : 0 < limit.toNat) :
    (Misjudged current event (limit - 1) ∧ AgeTest.wrapping.below current event limit = false ∧
      AgeTest.exact.below current event limit = true) ∨
    (¬ Misjudged current event (limit - 1) ∧
      AgeTest.wrapping.below current event limit = AgeTest.exact.below current event limit) := by
  by_cases h : Misjudged current event (limit - 1)
  · have hlt := h.1
    left
    refine ⟨h, decide_eq_false fun hb => ((sub_lt_iff _ _ hl).mp hb).2 h, decide_eq_true ?_⟩
    unfold trueAge
    omega
  · right
    refine ⟨h, decide_eq_decide.mpr ?_⟩
    rw [sub_lt_iff _ _ hl]
    exact and_iff_left h

def ParentMisjudged (d : InstanceDescription) (current : TimestampMs) : Prop :=
  ∃ r ∈ d.parent, ∃ since ∈ r.timestampMs, Misjudged current since chromeBrowserSessionLifetimeMs

private theorem parentAbove_cases (d : InstanceDescription) (current : TimestampMs) :
    (ParentMisjudged d current ∧ parentAbove .wrapping d current = true ∧
      parentAbove .exact d current = false) ∨
    (¬ ParentMisjudged d current ∧
      parentAbove .wrapping d current = parentAbove .exact d current) := by
  rcases hp : d.parent with _ | ⟨_ | since, owner⟩
  · right
    simp [ParentMisjudged, parentAbove, hp]
  · right
    simp [ParentMisjudged, parentAbove, hp]
  · have hM : ParentMisjudged d current ↔
        Misjudged current since chromeBrowserSessionLifetimeMs := by
      simp [ParentMisjudged, hp]
    simp only [parentAbove, hp, hM]
    exact AgeTest.above_cases _ _ _

private theorem unhealthBrowser_eq_exact_iff (d : InstanceDescription)
    (created current : TimestampMs) :
    unhealthBrowser .wrapping d created current = unhealthBrowser .exact d created current ↔
      FairBrowser d created current := by
  have hM : (∀ r ∈ d.parent, ∀ since ∈ r.timestampMs,
      ¬ Misjudged current since chromeBrowserSessionLifetimeMs) ↔ ¬ ParentMisjudged d current := by
    simp [ParentMisjudged]
  rw [FairBrowser, hM]
  unfold unhealthBrowser
  rcases parentAbove_cases d current with ⟨hm, hw, he⟩ | ⟨hm, hw⟩
  · simp only [hw, he, hm]
    cases AgeTest.exact.above current (lastActivity d created) chromeBrowserTimeoutMs <;>
      cases AgeTest.exact.above current created chromeBrowserMaxLifetimeMs <;> simp
  rw [hw]
  cases parentAbove .exact d current with
  | true => simp [hm]
  | false =>
    rcases AgeTest.above_cases current (lastActivity d created) chromeBrowserTimeoutMs with
      ⟨hh, hw, he⟩ | ⟨hh, hw⟩
    · simp only [hw, he, hh]
      cases AgeTest.exact.above current created chromeBrowserMaxLifetimeMs <;> simp
    rw [hw]
    cases AgeTest.exact.above current (lastActivity d created) chromeBrowserTimeoutMs with
    | true => simp [hm, hh]
    | false =>
      rcases AgeTest.above_cases current created chromeBrowserMaxLifetimeMs with
        ⟨hc, hw, he⟩ | ⟨hc, hw⟩
      · simp [hw, he, hc]
      · simp [hw, hm, hh, hc]

private theorem unhealthAgent_eq_exact_iff (d : InstanceDescription)
    (created current : TimestampMs) :
    unhealthAgent .wrapping d created current = unhealthAgent .exact d created current ↔
      FairAgent d created current := by
  have hlimits : agentTimeoutMs.toNat ≤ agentMaxLifetimeMs.toNat := by decide
  have hsilent := AgeTest.above_cases current (lastActivity d created) agentTimeoutMs
  have hlife : ¬ Misjudged current (lastActivity d created) agentTimeoutMs →
      AgeTest.wrapping.above current (lastActivity d created) agentMaxLifetimeMs =
        AgeTest.exact.above current (lastActivity d created) agentMaxLifetimeMs := by
    intro h
    rcases AgeTest.above_cases current (lastActivity d created) agentMaxLifetimeMs with
      ⟨hm, _⟩ | ⟨_, he⟩
    · exact absurd (hm.mono hlimits) h
    · exact he
  have hnone : AgeTest.exact.above current (lastActivity d created) agentTimeoutMs = false →
      AgeTest.exact.above current (lastActivity d created) agentMaxLifetimeMs = false := by
    intro h
    by_contra hc
    rw [AgeTest.exact_above_mono hlimits (by simpa using hc)] at h
    cases h
  unfold unhealthAgent FairAgent
  rcases AgeTest.below_cases current created (show 0 < agentGracePeriodMs.toNat by decide) with
    ⟨hg, hw, he⟩ | ⟨hg, hw⟩
  · rw [hw, he]
    rcases hsilent with ⟨hm, hw, he⟩ | ⟨hm, hw⟩
    · simp [hg, hm, hw, he]
    · rw [hlife hm, hw]
      cases hs : AgeTest.exact.above current (lastActivity d created) agentTimeoutMs with
      | true => simp [hg]
      | false => simp [hg, hm, hnone hs]
  · rw [hw]
    cases AgeTest.exact.below current created agentGracePeriodMs with
    | true => simp [hg]
    | false =>
      rcases hsilent with ⟨hm, hw, he⟩ | ⟨hm, hw⟩
      · simp [hm, hw, he, hnone he]
      · simp [hm, hw, hlife hm]

/-- The release build's verdict is the verdict on true ages exactly when no deciding timestamp
is misjudged. -/
theorem unhealthInstance_eq_exact_iff (d : InstanceDescription) (current : TimestampMs) :
    unhealthInstance d current = unhealthInstanceExact d current ↔ FairClock d current := by
  unfold unhealthInstance unhealthInstanceExact unhealthInstanceBy FairClock
  cases d.instanceType with
  | none => simp
  | some instanceType =>
    cases d.createdTimestampMs with
    | none => simp
    | some created =>
      simp only [Option.mem_def, Option.some.injEq, forall_eq']
      cases InstanceType.tryFrom instanceType with
      | none => simp
      | some t =>
        cases t with
        | chromeBrowser | fakeInstance => exact unhealthBrowser_eq_exact_iff d created current
        | agent => exact unhealthAgent_eq_exact_iff d created current
        | _ => simp

/-- One heartbeat accepted a millisecond after the clock was read makes a live browser look
silent. -/
theorem unhealthInstance_heartbeat_after_clock :
    unhealthInstance
      { instanceId := some ⟨"chrome"⟩, instanceType := some InstanceType.chromeBrowser.toI32,
        createdTimestampMs := some ⟨1000000⟩, healthCheck := some ⟨some ⟨1000001⟩⟩ } ⟨1000000⟩ =
        some .healthCheckFailed ∧
    unhealthInstanceExact
      { instanceId := some ⟨"chrome"⟩, instanceType := some InstanceType.chromeBrowser.toI32,
        createdTimestampMs := some ⟨1000000⟩, healthCheck := some ⟨some ⟨1000001⟩⟩ } ⟨1000000⟩ =
        none := by
  decide

end WayPoint.Manager
