import WayPoint.Foundations.History
import WayPoint.Manager.ExactVerdict
import WayPoint.Manager.KillPass
import WayPoint.Manager.TimedSections

/-! The kill loop (`start_kill_loop`) among the sections of everybody else. Each pass is due one interval
after the one before it was due, so a late pass does not delay those after it. -/
namespace WayPoint.Manager
open Foundations Program

/-- What the loop waits for. Instants are milliseconds of the monotonic clock. -/
inductive LoopCall where
  | instantNow
  | locked (c : Section)
  /-- `sleep_until`, which sets a timer. -/
  | sleepUntil (deadline : Nat)
  /-- The `await` of that timer. -/
  | elapsed (deadline : Nat)

abbrev LoopCall.Reply : LoopCall → Type
  | .instantNow => Nat
  | .locked c => c.Reply
  | .sleepUntil _ | .elapsed _ => Unit

abbrev Loop := Program LoopCall.Reply

/-- A handler called by the loop. -/
def inLoop {α : Type} : Handler α → Loop α
  | .done a => .done a
  | .call c next => .call (.locked c) fun r => inLoop (next r)

def killLoopInterval : Nat := 1000

/-- The `loop`, for a number of passes. -/
def killLoop : Nat → Nat → Loop Unit
  | 0, _ => return ()
  | passes + 1, nextKillTime => do
    inLoop killUnhealthInstances
    let nextKillTime := nextKillTime + killLoopInterval
    perform (LoopCall.sleepUntil nextKillTime)
    perform (LoopCall.elapsed nextKillTime)
    killLoop passes nextKillTime

def startKillLoop (passes : Nat) : Loop Unit := do
  let nextKillTime ← perform LoopCall.instantNow
  killLoop passes nextKillTime

/-- The store, and the two clocks. -/
structure Clocked extends TimedStore where
  instant : Nat

/-- The clocks go on together, and neither goes back. -/
def Elapses (a b : Clocked) : Prop :=
  ∃ ms, b.now.timestampMs.toNat = a.now.timestampMs.toNat + ms ∧ b.instant = a.instant + ms

/-- A section of the release build, at one time. -/
def sectionAt : Server Section.Reply Clocked := fun c a r b =>
  Elapses a b ∧ ∃ order, FiniteMap.Enumerates order a.store ∧
    c.run (Stream'.const b.now) order a.store = (r, b.store)

def loopServes : Server LoopCall.Reply Clocked
  | .locked c, a, r, b => sectionAt c a r b
  | .instantNow, a, r, b => Elapses a b ∧ r = b.instant ∧ b.store = a.store
  | .sleepUntil _, a, _, b => Elapses a b ∧ b.store = a.store
  | .elapsed deadline, a, _, b => Elapses a b ∧ deadline ≤ b.instant ∧ b.store = a.store

section verdict
variable {d d' : InstanceDescription} {t now : TimestampMs}

/-- What time and a section may do to an entry: signs of life and links are stamped now. -/
structure Younger (now : TimestampMs) (d d' : InstanceDescription) : Prop where
  created : d'.createdTimestampMs = d.createdTimestampMs
  instanceType : d'.instanceType = d.instanceType
  parent : d'.parent = d.parent ∨ d'.parent.bind Relationship.timestampMs = some now
  healthCheck : d'.healthCheck = d.healthCheck ∨ d'.healthCheck.bind HealthCheck.timestampMs = some now
  kill : d'.killInstanceRequest = none → d.killInstanceRequest = none

theorem Younger.refl (now : TimestampMs) (d : InstanceDescription) : Younger now d d :=
  ⟨rfl, rfl, Or.inl rfl, Or.inl rfl, id⟩

private theorem elapsedMs_nonpos (hle : t.timestampMs.toNat ≤ now.timestampMs.toNat) : elapsedMs t now ≤ 0 := by
  unfold elapsedMs trueAge
  omega

private theorem exact_above_eq_false (limit : UInt64) (hle : t.timestampMs.toNat ≤ now.timestampMs.toNat) :
    AgeTest.exact.above t now limit = false := by
  have hage := elapsedMs_nonpos hle
  rw [Bool.eq_false_iff]
  intro habove
  have := exact_above_iff.mp habove
  omega

private theorem parentAbove_of_stamp (age : AgeTest) (h : d.parent.bind Relationship.timestampMs = some now) :
    parentAbove age d t = age.above t now chromeBrowserSessionLifetimeMs := by
  obtain ⟨⟨stamp, owner⟩, hp, hstamp⟩ := Option.bind_eq_some_iff.mp h
  obtain rfl : stamp = some now := hstamp
  rw [parentAbove, hp]

/-- What happens from `t` on makes nobody unhealthy at `t`. -/
theorem Younger.verdict (h : Younger now d d') (hle : t.timestampMs.toNat ≤ now.timestampMs.toNat)
    (hd' : (unhealthInstanceExact d' t).isSome) : (unhealthInstanceExact d t).isSome := by
  rw [unhealthInstanceExact_isSome_iff] at hd' ⊢
  rcases hd' with ⟨created, hc, htype, hover⟩ | ⟨hmonitored, hsilent⟩
  · rw [h.created] at hc
    rw [InstanceDescription.isType, InstanceDescription.isType, h.instanceType] at htype
    refine Or.inl ⟨created, hc, htype, hover.imp_left fun hparent => ?_⟩
    rcases h.parent with hsame | hnow
    · rwa [parentAbove, hsame] at hparent
    · rw [parentAbove_of_stamp _ hnow, exact_above_eq_false _ hle] at hparent
      cases hparent
  · refine Or.inr ⟨hmonitored.of_same h.created.symm h.instanceType.symm, fun created hc => ?_⟩
    rw [← h.created] at hc
    have hage := hsilent created hc
    rcases h.healthCheck with hsame | hnow
    · rwa [lastActivity, hsame] at hage
    · rw [lastActivity, hnow, Option.getD_some] at hage
      have := elapsedMs_nonpos hle
      omega

/-- Whoever is registered from `t` on is not unhealthy at `t`. -/
private theorem blank_verdict (x : InstanceId) (ty : Option Int32)
    (hle : t.timestampMs.toNat ≤ now.timestampMs.toNat) :
    ¬ (unhealthInstanceExact (blankDescription x ty now) t).isSome := by
  have hage := elapsedMs_nonpos hle
  rw [unhealthInstanceExact_isSome_iff]
  intro h
  rcases h with ⟨created, hc, _, hparent | hday⟩ | ⟨_, hsilent⟩
  · cases hparent
  · obtain rfl := Option.some.inj hc
    omega
  · have := hsilent now rfl
    rw [show lastActivity (blankDescription x ty now) now = now from rfl] at this
    omega

private theorem wrapping_above {event : TimestampMs} {limit : UInt64} (h : AgeTest.exact.above t event limit = true) :
    AgeTest.wrapping.above t event limit = true := by
  rcases AgeTest.above_cases t event limit with ⟨_, hw, _⟩ | ⟨_, hw⟩
  · exact hw
  · rw [hw, h]

private theorem wrapping_not_below {event : TimestampMs} {limit : UInt64} (hl : 0 < limit.toNat)
    (h : AgeTest.exact.below t event limit = false) : AgeTest.wrapping.below t event limit = false := by
  rcases AgeTest.below_cases t event hl with ⟨_, hw, _⟩ | ⟨_, hw⟩
  · exact hw
  · rw [hw, h]

private theorem agent_reported {created : TimestampMs} (h : (unhealthAgent .exact d created t).isSome)
    (hc : d.createdTimestampMs = some created) : (unhealthAgent .wrapping d created t).isSome := by
  obtain ⟨hage, hsilent⟩ := (exactAgent_isSome_iff hc).mp h
  have hgrace : AgeTest.exact.below t created agentGracePeriodMs = false := by
    simpa [AgeTest.exact, elapsedMs, show agentGracePeriodMs.toNat = 60 * 1000 by decide] using hage
  have habove : AgeTest.exact.above t (lastActivity d created) agentTimeoutMs = true :=
    (exact_silent_iff hc).mpr hsilent
  rw [unhealthAgent, wrapping_not_below (by decide) hgrace, wrapping_above habove]
  rfl

/-- Whoever is unhealthy is reported by the release build too, whose ages are never too short. -/
private theorem reported_of_unhealthy (h : (unhealthInstanceExact d t).isSome) : (unhealthInstance d t).isSome := by
  have hbrowser {created : TimestampMs} (h : (unhealthBrowser .exact d created t).isSome) :
      (unhealthBrowser .wrapping d created t).isSome := by
    rw [unhealthBrowser_isSome] at h ⊢
    refine h.imp (fun hparent => ?_) (Or.imp wrapping_above wrapping_above)
    unfold parentAbove at hparent ⊢
    split at hparent
    · exact wrapping_above hparent
    · cases hparent
  unfold unhealthInstanceExact unhealthInstanceBy at h
  unfold unhealthInstance unhealthInstanceBy
  cases hv : d.instanceType with
  | none =>
    rw [hv] at h
    cases h
  | some v =>
    cases hc : d.createdTimestampMs with
    | none =>
      rw [hv, hc] at h
      cases h
    | some created =>
      simp only [hv, hc] at h ⊢
      cases hty : InstanceType.tryFrom v with
      | none =>
        rw [hty] at h
        cases h
      | some ty =>
        rw [hty] at h
        cases ty with
        | chromeBrowser | fakeInstance => exact hbrowser h
        | agent => exact agent_reported h hc
        | _ => cases h

end verdict

section sections
variable {a b : Clocked} {c : Section} {r : c.Reply} {x : String} {t : TimestampMs}
  {orders : List InstanceDescription}

theorem Replaced.old_or_now {T : Type} [SetTimestamp T] {now : TimestampMs} {value old new : Option T}
    {time : T → Option TimestampMs} (htime : ∀ t v, time (SetTimestamp.setTimestamp t v) = some t)
    (h : Replaced (Stream'.const now) value old new) : new = old ∨ new.bind time = some now := by
  cases value with
  | none => exact Or.inl h
  | some v =>
    obtain ⟨t, ht, rfl⟩ := h
    right
    rw [Option.bind_some, htime, mem_const ht]

theorem Effect.younger {now : TimestampMs} {y : InstanceId} {request d d' : InstanceDescription}
    (he : Effect (Stream'.const now) y request x d d') : Younger now d d' where
  created := he.createdTimestampMs
  instanceType := he.instanceType
  parent := he.parent.old_or_now fun _ _ => rfl
  healthCheck := he.healthCheck.old_or_now fun _ _ => rfl
  kill hd' := by
    rcases he.kill with hset | ⟨_, hnone, _⟩
    · cases hv : (incoming y request x).killInstanceRequest with
      | none =>
        rw [hv] at hset
        exact hset.symm.trans hd'
      | some v =>
        rw [hv] at hset
        obtain ⟨_, _, hset⟩ := hset
        rw [hset] at hd'
        cases hd'
    · exact hnone

/-- An entry after a section was there before, or is new. -/
private theorem sectionAt_entry (hn : Named a.store) (h : sectionAt c a r b) {d' : InstanceDescription}
    (hd' : b.store.lookup x = some d') : (∃ ty, d' = blankDescription ⟨x⟩ ty b.now) ∨
      ∃ d, a.store.lookup x = some d ∧ Younger b.now d d' := by
  obtain ⟨_, order, _, hrun⟩ := h
  cases c with
  | apply request =>
    rcases hexec : (applyToInstanceDescription request).exec a.store (Stream'.const b.now) with ⟨r', u, later⟩
    simp only [Section.run, Section.runBy, hexec, Prod.mk.injEq] at hrun
    obtain ⟨rfl, rfl⟩ := hrun
    rcases apply_effect hn hexec with ⟨_, hsame⟩ | ⟨_, y, _, he⟩
    · rw [hsame] at hd'
      exact Or.inr ⟨d', hd', .refl _ _⟩
    · obtain ⟨d, hd, heff⟩ := he.back hd'
      exact Or.inr ⟨d, hd, heff.younger⟩
  | insertBlank id ty =>
    simp only [Section.run, Section.runBy, insertBlank] at hrun
    split at hrun
    · obtain ⟨_, hsame⟩ := Prod.mk.inj hrun
      rw [← hsame] at hd'
      exact Or.inr ⟨d', hd', .refl _ _⟩
    · obtain ⟨_, hinsert⟩ := Prod.mk.inj hrun
      rw [← hinsert, FiniteMap.lookup_insert_eq] at hd'
      split at hd'
      · next hx =>
        cases hd'
        exact Or.inl ⟨ty, by rw [hx]; rfl⟩
      · exact Or.inr ⟨d', hd', .refl _ _⟩
  | remove key =>
    obtain ⟨_, herase⟩ := Prod.mk.inj hrun
    rw [← herase, FiniteMap.lookup_erase_eq] at hd'
    split at hd'
    · cases hd'
    · exact Or.inr ⟨d', hd', .refl _ _⟩
  | now | get | getAll | getUnhealth =>
    obtain ⟨_, hsame⟩ := Prod.mk.inj hrun
    rw [← hsame] at hd'
    exact Or.inr ⟨d', hd', .refl _ _⟩

/-- Nobody alive is unhealthy at a time. -/
def NoneUnhealthy (s : InnerService) (t : TimestampMs) : Prop :=
  ∀ x d, s.lookup x = some d → d.killInstanceRequest = none → ¬ (unhealthInstanceExact d t).isSome

/-- The orders reach everybody alive who is unhealthy at a time. -/
def Covered (s : InnerService) (t : TimestampMs) (orders : List InstanceDescription) : Prop :=
  ∀ x d, s.lookup x = some d → d.killInstanceRequest = none → (unhealthInstanceExact d t).isSome →
    ∃ reason, killOrder (some ⟨x⟩) reason t ∈ orders

private theorem covered_nil {s : InnerService} : Covered s t [] ↔ NoneUnhealthy s t := by
  constructor
  · intro h x d hd halive hunhealthy
    obtain ⟨_, hmem⟩ := h x d hd halive hunhealthy
    cases hmem
  · intro h x d hd halive hunhealthy
    exact absurd hunhealthy (h x d hd halive)

/-- Sections from `t` on leave nobody else to be reached. -/
theorem Covered.section (h : Covered a.store t orders) (hn : Named a.store) (hserve : sectionAt c a r b)
    (hle : t.timestampMs.toNat ≤ b.now.timestampMs.toNat) : Covered b.store t orders := by
  intro x d' hd' halive hunhealthy
  rcases sectionAt_entry hn hserve hd' with ⟨ty, rfl⟩ | ⟨d, hd, hyounger⟩
  · exact absurd hunhealthy (blank_verdict ⟨x⟩ ty hle)
  · exact h x d hd (hyounger.kill halive) (hyounger.verdict hle hunhealthy)

theorem NoneUnhealthy.section (h : NoneUnhealthy a.store t) (hn : Named a.store)
    (hserve : sectionAt c a r b) (hle : t.timestampMs.toNat ≤ b.now.timestampMs.toNat) :
    NoneUnhealthy b.store t :=
  covered_nil.mp ((covered_nil.mpr h).section hn hserve hle)

/-- A kill order leaves its instance dead or unregistered. -/
private theorem not_alive_of_order (hn : Named a.store) {reason : KillReason} {r : Except Status Bool}
    (hserve : sectionAt (.apply (killOrder (some ⟨x⟩) reason t)) a r b) : ¬ Alive b.store x := by
  obtain ⟨_, order, _, hrun⟩ := hserve
  rcases hexec : (applyToInstanceDescription (killOrder (some ⟨x⟩) reason t)).exec a.store
    (Stream'.const b.now) with ⟨r', u, later⟩
  simp only [Section.run, Section.runBy, hexec, Prod.mk.injEq] at hrun
  obtain ⟨rfl, rfl⟩ := hrun
  rcases apply_effect hn hexec with ⟨hr, hsame⟩ | ⟨_, y, hy, he⟩
  · intro halive
    rw [hsame] at halive
    have hacc : Accepted a.store ⟨x⟩ (killOrder (some ⟨x⟩) reason t) := accepted_killOrder.mpr halive
    obtain ⟨u', last, hcommit, _⟩ := commitUpdate_effect hn hacc.toAccepts (Stream'.const b.now)
    rw [apply_of_accepted hn hacc, exec_bind_ok _ _ hcommit] at hexec
    obtain ⟨hok, _⟩ := Prod.mk.inj hexec
    exact hr hok.symm
  · obtain rfl : (⟨x⟩ : InstanceId) = y := Option.some.inj hy.instanceId
    intro halive
    obtain ⟨d', hd', hnone⟩ := halive
    obtain ⟨d, hd, heff⟩ := he.back hd'
    rcases heff.kill with hset | ⟨_, _, _, _, hset⟩
    · rw [show incoming ⟨x⟩ (killOrder (some ⟨x⟩) reason t) x = _ from incoming_self ⟨x⟩ _] at hset
      obtain ⟨_, _, hset⟩ := hset
      rw [hset] at hnone
      cases hnone
    · rw [hset] at hnone
      cases hnone

/-- One order less to be carried out. -/
theorem Covered.order {order : InstanceDescription} {r : Except Status Bool}
    (h : Covered a.store t (order :: orders)) (hn : Named a.store)
    (hserve : sectionAt (.apply order) a r b) (hle : t.timestampMs.toNat ≤ b.now.timestampMs.toNat) :
    Covered b.store t orders := by
  intro x d hd halive hunhealthy
  obtain ⟨reason, hmem⟩ := h.section hn hserve hle x d hd halive hunhealthy
  rcases List.mem_cons.mp hmem with rfl | hrest
  · exact absurd ⟨d, hd, halive⟩ (not_alive_of_order hn hserve)
  · exact ⟨reason, hrest⟩

/-- The snapshot has an order for everybody alive who is unhealthy. -/
private theorem covered_snapshot (hn : Named a.store) (hserve : sectionAt (.getUnhealth t) a orders b) :
    Covered b.store t orders := by
  obtain ⟨_, entries, henum, hrun⟩ := hserve
  obtain ⟨rfl, hsame⟩ : getUnhealthInstances t entries = orders ∧ a.store = b.store := Prod.mk.inj hrun
  rw [← hsame]
  intro x d hd halive hunhealthy
  obtain ⟨reason, hreason⟩ := Option.isSome_iff_exists.mp (reported_of_unhealthy hunhealthy)
  refine ⟨reason, List.mem_filterMap.mpr ⟨⟨x, d⟩, ?_, ?_⟩⟩
  · rw [List.mem_filter, henum.mem_iff]
    exact ⟨hd, Option.isNone_iff_eq_none.mpr halive⟩
  · rw [show unhealthInstanceBy .wrapping d t = some reason from hreason, hn.key hd]
    rfl

end sections

section run
variable {s a b : Clocked} {passes : Nat} {q : Loop Unit} {t : TimestampMs}
  {past : List (Event LoopCall.Reply Section.Reply Clocked)} {last : Option Nat}

def LoopCall.deadline? : LoopCall → Option Nat
  | .sleepUntil deadline => some deadline
  | _ => none

/-- The deadline set at the end of the last finished pass. -/
def lastDeadline : List (Event LoopCall.Reply Section.Reply Clocked) → Option Nat
  | [] => none
  | .own c _ _ _ :: past => c.deadline?.or (lastDeadline past)
  | .other _ _ _ _ :: past => lastDeadline past

private theorem lastDeadline_own {c : LoopCall} {r : c.Reply} (h : c.deadline? = none) :
    lastDeadline (.own c a r b :: past) = lastDeadline past := by
  rw [lastDeadline, h, Option.none_or]

/-- The clocks have gone on together since the clock showed `t`, which was not before `start`. -/
structure ReadSince (start : Nat) (t : TimestampMs) (a : Clocked) : Prop where
  le : t.timestampMs.toNat ≤ a.now.timestampMs.toNat
  lag : a.now.timestampMs.toNat + start ≤ t.timestampMs.toNat + a.instant

theorem ReadSince.elapses {start : Nat} (h : ReadSince start t a) (he : Elapses a b) :
    ReadSince start t b := by
  obtain ⟨_, hnow, hinstant⟩ := he
  obtain ⟨hle, hlag⟩ := h
  constructor
  · omega
  · omega

/-- The loop after the kills of a pass. -/
def sleepOn (passes next : Nat) : Loop Unit := do
  perform (LoopCall.sleepUntil (next + killLoopInterval))
  perform (LoopCall.elapsed (next + killLoopInterval))
  killLoop passes (next + killLoopInterval)

/-- Where the loop is, after its last deadline. -/
inductive LoopPhase (a : Clocked) : Option Nat → Loop Unit → Prop where
  | start (passes : Nat) : LoopPhase a none (startKillLoop passes)
  | due {last : Option Nat} (passes next : Nat) (reached : next ≤ a.instant) : LoopPhase a last (killLoop passes next)
  | snapshot {last : Option Nat} (passes : Nat) {next : Nat} {t : TimestampMs} (read : ReadSince next t a) :
      LoopPhase a last (inLoop (killUnhealthInstancesAt t) >>= fun _ => sleepOn passes next)
  | killing {last : Option Nat} (passes : Nat) {next : Nat} {t : TimestampMs} {orders : List InstanceDescription}
      (read : ReadSince next t a) (covered : Covered a.store t orders) :
      LoopPhase a last (inLoop (killAll orders) >>= fun _ => sleepOn passes next)
  | asleep {last : Option Nat} (passes next : Nat) :
      LoopPhase a last (.call (.elapsed next) fun _ => killLoop passes next)

/-- A pass that began no more than one interval before the last deadline has left nobody unhealthy. -/
def Swept (a : Clocked) (last : Option Nat) : Prop :=
  ∀ deadline ∈ last, ∃ start t, deadline = start + killLoopInterval ∧ ReadSince start t a ∧
    NoneUnhealthy a.store t

/-- What holds of the loop at every moment. -/
structure OnWatch (last : Option Nat) (q : Loop Unit) (a : Clocked) : Prop where
  named : Named a.store
  phase : LoopPhase a last q
  swept : Swept a last

private theorem sectionAt_named {c : Section} {r : c.Reply} (hn : Named a.store) (h : sectionAt c a r b) :
    Named b.store := by
  obtain ⟨_, order, _, hrun⟩ := h
  exact Section.runBy_named hn hrun

theorem Swept.section {c : Section} {r : c.Reply} (h : Swept a last) (hn : Named a.store)
    (hserve : sectionAt c a r b) : Swept b last := by
  intro deadline hdeadline
  obtain ⟨start, t, rfl, hread, hnone⟩ := h deadline hdeadline
  have hread' := hread.elapses hserve.1
  exact ⟨start, t, rfl, hread', hnone.section hn hserve hread'.le⟩

theorem Swept.elapses (h : Swept a last) (he : Elapses a b) (hsame : b.store = a.store) : Swept b last := by
  intro deadline hdeadline
  obtain ⟨start, t, rfl, hread, hnone⟩ := h deadline hdeadline
  exact ⟨start, t, rfl, hread.elapses he, hsame ▸ hnone⟩

theorem Elapses.instant_le (h : Elapses a b) : a.instant ≤ b.instant := by
  obtain ⟨ms, _, hinstant⟩ := h
  omega

theorem LoopPhase.section {c : Section} {r : c.Reply} (h : LoopPhase a last q) (hn : Named a.store)
    (hserve : sectionAt c a r b) : LoopPhase b last q := by
  cases h with
  | start passes => exact .start passes
  | due passes next reached => exact .due passes next (reached.trans hserve.1.instant_le)
  | snapshot passes read => exact .snapshot passes (read.elapses hserve.1)
  | killing passes read covered =>
    have hread := read.elapses hserve.1
    exact .killing passes hread (covered.section hn hserve hread.le)
  | asleep passes next => exact .asleep passes next

/-- Somebody else's section. -/
theorem OnWatch.section {c : Section} {r : c.Reply} (h : OnWatch last q a) (hserve : sectionAt c a r b) :
    OnWatch last q b where
  named := sectionAt_named h.named hserve
  phase := h.phase.section h.named hserve
  swept := h.swept.section h.named hserve

/-- A step of the loop itself, one case for each of its calls. -/
theorem OnWatch.own {c : LoopCall} {k : c.Reply → Loop Unit} {r : c.Reply}
    (h : OnWatch (lastDeadline past) (.call c k) a) (hserve : loopServes c a r b) :
    OnWatch (lastDeadline (.own c a r b :: past)) (k r) b := by
  obtain ⟨hn, hphase, hswept⟩ := h
  generalize hq : Program.call c k = q at hphase
  generalize hl : lastDeadline past = last at hphase hswept
  cases hphase with
  | start passes =>
    obtain ⟨rfl, hk⟩ := Program.call.inj hq
    obtain rfl := eq_of_heq hk
    obtain ⟨he, rfl, hsame⟩ := hserve
    refine ⟨hsame ▸ hn, .due passes b.instant le_rfl, ?_⟩
    rw [lastDeadline_own rfl, hl]
    exact hswept.elapses he hsame
  | due passes next reached =>
    cases passes with
    | zero => cases hq
    | succ passes =>
      obtain ⟨rfl, hk⟩ := Program.call.inj hq
      obtain rfl := eq_of_heq hk
      obtain ⟨he, order, henum, hrun⟩ := hserve
      obtain ⟨rfl, hsame⟩ : b.now = r ∧ a.store = b.store := Prod.mk.inj hrun
      refine ⟨hsame ▸ hn, .snapshot passes ⟨le_rfl, ?_⟩, ?_⟩
      · have := he.instant_le
        omega
      · rw [lastDeadline_own rfl, hl]
        exact hswept.elapses he hsame.symm
  | snapshot passes read =>
    obtain ⟨rfl, hk⟩ := Program.call.inj hq
    obtain rfl := eq_of_heq hk
    refine ⟨sectionAt_named hn hserve, .killing passes (read.elapses hserve.1) (covered_snapshot hn hserve), ?_⟩
    rw [lastDeadline_own rfl, hl]
    exact hswept.section hn hserve
  | @killing _ passes next t orders read covered =>
    cases orders with
    | nil =>
      obtain ⟨rfl, hk⟩ := Program.call.inj hq
      obtain rfl := eq_of_heq hk
      obtain ⟨he, hsame⟩ := hserve
      refine ⟨hsame ▸ hn, .asleep passes _, ?_⟩
      intro deadline hdeadline
      cases hdeadline
      exact ⟨next, t, rfl, read.elapses he, hsame ▸ covered_nil.mp covered⟩
    | cons order orders =>
      obtain ⟨rfl, hk⟩ := Program.call.inj hq
      obtain rfl := eq_of_heq hk
      have hread := read.elapses hserve.1
      refine ⟨sectionAt_named hn hserve, .killing passes hread (covered.order hn hserve hread.le), ?_⟩
      rw [lastDeadline_own rfl, hl]
      exact hswept.section hn hserve
  | asleep passes next =>
    obtain ⟨rfl, hk⟩ := Program.call.inj hq
    obtain rfl := eq_of_heq hk
    obtain ⟨he, hreached, hsame⟩ := hserve
    refine ⟨hsame ▸ hn, .due passes next hreached, ?_⟩
    rw [lastDeadline_own rfl, hl]
    exact hswept.elapses he hsame

theorem onWatch_run (hn : Named s.store)
    (h : Logged loopServes sectionAt s (startKillLoop passes) past q a) : OnWatch (lastDeadline past) q a := by
  induction h with
  | nil => exact ⟨hn, .start passes, fun _ hnone => by cases hnone⟩
  | own _ served ih => exact ih.own served
  | other _ served ih => exact ih.section served

/-- The limits of a live instance, with some slack. -/
structure WithinLimits (slack : Nat) (d : InstanceDescription) (now : TimestampMs) : Prop where
  browser : d.isType .chromeBrowser ∨ d.isType .fakeInstance → ∀ created ∈ d.createdTimestampMs,
    elapsedMs now (lastActivity d created) ≤ 5 * 1000 + slack ∧
      elapsedMs now created ≤ 24 * 60 * 60 * 1000 + slack ∧
      ∀ parent ∈ d.parent, ∀ since ∈ parent.timestampMs, elapsedMs now since ≤ 60 * 60 * 1000 + slack
  agent : d.isType .agent → ∀ created ∈ d.createdTimestampMs,
    elapsedMs now (lastActivity d created) ≤ 5 * 1000 + slack ∨ elapsedMs now created < 60 * 1000 + slack

private theorem withinLimits_of_not_unhealthy {d : InstanceDescription} {now : TimestampMs} {slack : Nat}
    (h : ¬ (unhealthInstanceExact d t).isSome)
    (hslack : now.timestampMs.toNat ≤ t.timestampMs.toNat + slack) : WithinLimits slack d now := by
  have hlater (event : TimestampMs) : elapsedMs now event ≤ elapsedMs t event + slack := by
    unfold elapsedMs trueAge
    omega
  rw [unhealthInstanceExact_isSome_iff, not_or] at h
  obtain ⟨hlimits, hspoken⟩ := h
  constructor
  · intro htype created hc
    have hover : ¬ (parentAbove .exact d t = true ∨ 24 * 60 * 60 * 1000 < elapsedMs t created) :=
      fun hp => hlimits ⟨created, hc, htype, hp⟩
    have hsilent : ¬ Silent d t := fun hsilent => hspoken ⟨⟨created, hc, Or.inl htype⟩, hsilent⟩
    have hactivity : elapsedMs t (lastActivity d created) ≤ 5 * 1000 := by
      by_contra hlong
      refine hsilent fun created' hc' => ?_
      obtain rfl := Option.mem_unique hc hc'
      omega
    have := hlater (lastActivity d created)
    have := hlater created
    refine ⟨by omega, ?_, ?_⟩
    · by_contra hlong
      exact hover (Or.inr (by omega))
    · intro parent hparent since hsince
      have := hlater since
      by_contra hlong
      refine hover (Or.inl ?_)
      obtain ⟨stamp, owner⟩ := parent
      obtain rfl : stamp = some since := hsince
      have hour : chromeBrowserSessionLifetimeMs.toNat = 60 * 60 * 1000 := by decide
      rw [parentAbove, hparent]
      exact exact_above_iff.mpr (by omega)
  · intro htype created hc
    by_contra hnot
    rw [not_or] at hnot
    have := hlater (lastActivity d created)
    have := hlater created
    refine hspoken ⟨⟨created, hc, Or.inr ⟨htype, by omega⟩⟩, fun created' hc' => ?_⟩
    obtain rfl := Option.mem_unique hc hc'
    omega

/-- After the first pass nobody alive is past a limit by more than one interval and what the loop is
late by, whatever sections run in between. -/
theorem killLoop_vigilant (hn : Named s.store)
    (h : Logged loopServes sectionAt s (startKillLoop passes) past q a) {deadline lag : Nat}
    (hdeadline : lastDeadline past = some deadline) (hlag : a.instant ≤ deadline + lag) {x : String}
    {d : InstanceDescription} (hd : a.store.lookup x = some d) (halive : d.killInstanceRequest = none) :
    WithinLimits (killLoopInterval + lag) d a.now := by
  obtain ⟨start, t, rfl, hread, hnone⟩ := (onWatch_run hn h).swept deadline hdeadline
  refine withinLimits_of_not_unhealthy (hnone x d hd halive) ?_
  have := hread.lag
  omega

end run

/-- The silent agent is killed by the first pass. -/
def afterFirstPass : InnerService :=
  (Section.execute (Stream'.const ⟨70000⟩)
    (.apply (killOrder (some ⟨"agent"⟩) .healthCheckFailed ⟨70000⟩)) (replay ∅ silentAgent)).2

/-- A browser registers while the loop sleeps. -/
def whileAsleep : InnerService :=
  (Section.execute (Stream'.const ⟨70900⟩)
    (.insertBlank ⟨"browser"⟩ (some InstanceType.chromeBrowser.toI32)) afterFirstPass).2

theorem killLoop_vigilant_silentAgent : "agent" ∈ dead whileAsleep ∧ Alive whileAsleep "browser" ∧
    ∀ x d, whileAsleep.lookup x = some d → d.killInstanceRequest = none →
      WithinLimits (killLoopInterval + 0) d ⟨70900⟩ := by
  have hlisting := FiniteMap.enumerates_listing (replay ∅ silentAgent)
  have hstart : Logged loopServes sectionAt ⟨⟨replay ∅ silentAgent, ⟨70000⟩⟩, 100⟩ (startKillLoop 1) []
      (startKillLoop 1) ⟨⟨replay ∅ silentAgent, ⟨70000⟩⟩, 100⟩ := .nil
  have hstarted := hstart.own (c := LoopCall.instantNow) ⟨⟨0, rfl, rfl⟩, rfl, rfl⟩
  have hread := hstarted.own (c := LoopCall.locked .now) ⟨⟨0, rfl, rfl⟩, _, hlisting, rfl⟩
  have hsnapshot := hread.own (c := LoopCall.locked (.getUnhealth ⟨70000⟩))
    (r := [killOrder (some ⟨"agent"⟩) .healthCheckFailed ⟨70000⟩])
    ⟨⟨0, rfl, rfl⟩, _, hlisting, Prod.ext (by decide +kernel) rfl⟩
  have hkilled : Logged loopServes sectionAt _ (startKillLoop 1) _ _ ⟨⟨afterFirstPass, ⟨70000⟩⟩, 100⟩ :=
    hsnapshot.own (c := LoopCall.locked (.apply (killOrder (some ⟨"agent"⟩) .healthCheckFailed ⟨70000⟩)))
      ⟨⟨0, rfl, rfl⟩, _, hlisting, rfl⟩
  have hasleep := hkilled.own (c := LoopCall.sleepUntil 1100) (r := ()) ⟨⟨0, rfl, rfl⟩, rfl⟩
  have hother : Logged loopServes sectionAt _ (startKillLoop 1) _ _ ⟨⟨whileAsleep, ⟨70900⟩⟩, 1000⟩ :=
    hasleep.other (d := Section.insertBlank ⟨"browser"⟩ (some InstanceType.chromeBrowser.toI32))
      ⟨⟨900, rfl, rfl⟩, _, FiniteMap.enumerates_listing _, rfl⟩
  have hnamed : Named (replay ∅ silentAgent) := (Reachable.empty.replay silentAgent).consistent.named
  refine ⟨by decide +kernel, by decide +kernel, ?_⟩
  intro x d hd halive
  exact killLoop_vigilant hnamed hother rfl (show 1000 ≤ 1100 + 0 by decide) hd halive

end WayPoint.Manager
