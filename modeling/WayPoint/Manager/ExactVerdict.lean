import WayPoint.Manager.Lifetime

/-! The health verdict on exact ages: a limit that no heartbeat lifts is passed, or an instance
that must send heartbeats is silent. -/
namespace WayPoint.Manager
open Foundations

/-- A browser whose session or life is too long, whatever its heartbeats say. -/
def OverLimit (d : InstanceDescription) (t : TimestampMs) : Prop :=
  ∃ created ∈ d.createdTimestampMs, (d.isType .chromeBrowser ∨ d.isType .fakeInstance) ∧
    (parentAbove .exact d t = true ∨ 24 * 60 * 60 * 1000 < elapsedMs t created)

/-- The instance is one that must send heartbeats: a browser, or an agent past its grace period. -/
def Monitored (d : InstanceDescription) (t : TimestampMs) : Prop :=
  ∃ created ∈ d.createdTimestampMs, (d.isType .chromeBrowser ∨ d.isType .fakeInstance) ∨
    d.isType .agent ∧ 60 * 1000 ≤ elapsedMs t created

section verdict
variable {d : InstanceDescription} {t created : TimestampMs}

theorem exact_above_iff {limit : UInt64} : AgeTest.exact.above t created limit = true ↔
    (limit.toNat : Int) < elapsedMs t created := by
  simp only [AgeTest.exact, decide_eq_true_eq, elapsedMs]

theorem exact_silent_iff (hc : d.createdTimestampMs = some created) :
    AgeTest.exact.above t (lastActivity d created) chromeBrowserTimeoutMs = true ↔ Silent d t := by
  rw [exact_above_iff]
  simp [Silent, hc, show chromeBrowserTimeoutMs.toNat = 5 * 1000 by decide]

private theorem exactBrowser_isSome_iff (hc : d.createdTimestampMs = some created) :
    (unhealthBrowser .exact d created t).isSome ↔
      (parentAbove .exact d t = true ∨ 24 * 60 * 60 * 1000 < elapsedMs t created) ∨ Silent d t := by
  have hday : AgeTest.exact.above t created chromeBrowserMaxLifetimeMs = true ↔
      24 * 60 * 60 * 1000 < elapsedMs t created := by
    rw [exact_above_iff]
    simp [show chromeBrowserMaxLifetimeMs.toNat = 24 * 60 * 60 * 1000 by decide]
  rw [unhealthBrowser_isSome, exact_silent_iff hc, hday, or_assoc, or_comm (a := Silent d t)]

theorem exactAgent_isSome_iff (hc : d.createdTimestampMs = some created) :
    (unhealthAgent .exact d created t).isSome ↔
      60 * 1000 ≤ elapsedMs t created ∧ Silent d t := by
  have hgrace : AgeTest.exact.below t created agentGracePeriodMs = true ↔
      ¬ 60 * 1000 ≤ elapsedMs t created := by
    simp [AgeTest.exact, elapsedMs, show agentGracePeriodMs.toNat = 60 * 1000 by decide]
  have hlife : AgeTest.exact.above t (lastActivity d created) agentMaxLifetimeMs = true →
      AgeTest.exact.above t (lastActivity d created) agentTimeoutMs = true :=
    AgeTest.exact_above_mono (by decide)
  have hsilent : AgeTest.exact.above t (lastActivity d created) agentTimeoutMs = true ↔
      Silent d t := exact_silent_iff hc
  rw [unhealthAgent_isSome hlife, hgrace, not_not, hsilent]

private theorem isType_iff {v : Int32} (hv : d.instanceType = some v) (ty : InstanceType) :
    d.isType ty ↔ InstanceType.tryFrom v = some ty := by
  rw [InstanceDescription.isType, hv, Option.some.injEq]
  constructor
  · rintro rfl
    exact InstanceType.tryFrom_toI32 ty
  · exact InstanceType.tryFrom_eq_some

/-- On exact ages the verdict is that a limit is passed or a monitored instance is silent. -/
theorem unhealthInstanceExact_isSome_iff (d : InstanceDescription) (t : TimestampMs) :
    (unhealthInstanceExact d t).isSome ↔ OverLimit d t ∨ Monitored d t ∧ Silent d t := by
  unfold unhealthInstanceExact unhealthInstanceBy OverLimit Monitored
  cases hv : d.instanceType with
  | none => simp [InstanceDescription.isType, hv]
  | some v =>
    cases hc : d.createdTimestampMs with
    | none => simp
    | some created =>
      have hbrowser := exactBrowser_isSome_iff (t := t) hc
      have hagent := exactAgent_isSome_iff (t := t) hc
      simp only [Option.mem_def, Option.some.injEq, exists_eq_left', isType_iff hv]
      cases InstanceType.tryFrom v with
      | none => simp
      | some ty => cases ty <;> simp [hbrowser, hagent]

/-- A missing heartbeat is the verdict on silent monitored instances only. -/
theorem of_healthCheckFailed (h : unhealthInstanceExact d t = some .healthCheckFailed) :
    Monitored d t ∧ Silent d t := by
  have hsilent {created : TimestampMs} (hc : d.createdTimestampMs = some created)
      (hv : unhealthBrowser .exact d created t = some .healthCheckFailed) : Silent d t := by
    unfold unhealthBrowser at hv
    split at hv
    · cases hv
    · split at hv
      · next ha => exact (exact_silent_iff hc).mp ha
      · split at hv <;> cases hv
  unfold unhealthInstanceExact unhealthInstanceBy at h
  unfold Monitored
  cases hv : d.instanceType with
  | none =>
    rw [hv] at h
    cases h
  | some v =>
    cases hc : d.createdTimestampMs with
    | none =>
      rw [hv, hc] at h
      cases h
    | some created =>
      have hagent := exactAgent_isSome_iff (t := t) hc
      simp only [hv, hc] at h
      simp only [Option.mem_def, Option.some.injEq, exists_eq_left', isType_iff hv]
      cases hty : InstanceType.tryFrom v with
      | none =>
        rw [hty] at h
        cases h
      | some ty =>
        rw [hty] at h
        cases ty with
        | chromeBrowser => exact ⟨Or.inl (Or.inl rfl), hsilent hc h⟩
        | fakeInstance => exact ⟨Or.inl (Or.inr rfl), hsilent hc h⟩
        | agent =>
          have hv : unhealthAgent .exact d created t = some .healthCheckFailed := h
          obtain ⟨hage, hs⟩ := hagent.mp (by rw [hv]; rfl)
          exact ⟨Or.inr ⟨rfl, hage⟩, hs⟩
        | _ => cases h

theorem Monitored.later {u : TimestampMs} (h : Monitored d t)
    (hle : t.timestampMs.toNat ≤ u.timestampMs.toNat) : Monitored d u := by
  obtain ⟨created, hc, hbrowser | ⟨hagent, hage⟩⟩ := h
  · exact ⟨created, hc, Or.inl hbrowser⟩
  · refine ⟨created, hc, Or.inr ⟨hagent, ?_⟩⟩
    simp only [elapsedMs, trueAge] at hage ⊢
    omega

theorem Monitored.of_same {d' : InstanceDescription} (h : Monitored d t)
    (hc : d'.createdTimestampMs = d.createdTimestampMs) (ht : d'.instanceType = d.instanceType) :
    Monitored d' t := by
  simpa only [Monitored, InstanceDescription.isType, hc, ht] using h

end verdict

end WayPoint.Manager
