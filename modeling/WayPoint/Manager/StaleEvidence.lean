import WayPoint.Foundations.History
import WayPoint.Manager.ExactVerdict
import WayPoint.Manager.TimedSections

/-! A kill pass among the sections of other clients. The pass decides on a snapshot and acts on it
later, so an instance that gave a sign of life in between is killed all the same. -/
namespace WayPoint.Manager
open Foundations Program

/-- What happens while a pass runs: its own sections and those of everybody else. -/
abbrev PassEvent := Event Section.Reply Section.Reply TimedStore

def isSnapshot : PassEvent → Bool
  | .own (.getUnhealth _) _ _ _ => true
  | _ => false

/-- The events after the pass took its snapshot. -/
def sinceSnapshot (past : List PassEvent) : List PassEvent :=
  past.takeWhile (fun e => !isSnapshot e)

def heartbeatOf (x : String) : PassEvent → Prop
  | .own c _ r _ => c.beats x r
  | .other c _ r _ => c.beats x r

def registrationOf (x : String) : PassEvent → Prop
  | .own c _ r _ => c.inserts x r
  | .other c _ r _ => c.inserts x r

def SignOfLife (x : String) (e : PassEvent) : Prop := heartbeatOf x e ∨ registrationOf x e

/-- The step of the pass kills the live instance `x`, described by `d`, for a missing heartbeat. -/
def KillsForSilence (e : PassEvent) (x : String) (d : InstanceDescription) : Prop :=
  match e with
  | .own _ a _ b => a.store.lookup x = some d ∧ d.killInstanceRequest = none ∧
      ∃ d', b.store.lookup x = some d' ∧
        ∃ k ∈ d'.killInstanceRequest, k.killReason = KillReason.healthCheckFailed.toI32
  | .other _ _ _ _ => False

/-- No heartbeat was accepted since the snapshot that is at most five seconds old. -/
def Unheard (earlier : List PassEvent) (x : String) (now : TimestampMs) : Prop :=
  ∀ e ∈ sinceSnapshot earlier, heartbeatOf x e → 5 * 1000 < elapsedMs now e.after.now

/-- Nobody is killed for silence who is healthy when the kill is carried out, or was heard of since
the snapshot and not more than five seconds before. -/
def NeverStale (past : List PassEvent) : Prop :=
  ∀ e earlier, e :: earlier <:+ past → ∀ x d, KillsForSilence e x d →
    (unhealthInstanceExact d e.after.now).isSome ∧ Unheard earlier x e.after.now

/-- All signs of life since the snapshot are more than five seconds old. -/
def SilentSince (earlier : List PassEvent) (x : String) (now : TimestampMs) : Prop :=
  ∀ e ∈ sinceSnapshot earlier, SignOfLife x e → 5 * 1000 < elapsedMs now e.after.now

theorem SilentSince.unheard {earlier : List PassEvent} {x : String} {now : TimestampMs}
    (h : SilentSince earlier x now) : Unheard earlier x now :=
  fun e he hbeat => h e he (Or.inl hbeat)

/-- What a kill must find for its evidence to stand: no recent sign of life since the snapshot, and
whoever was registered anew is monitored again; or a browser that is over another limit and has not
been heard of since the snapshot either. -/
def EvidenceStands (earlier : List PassEvent) (x : String) (d : InstanceDescription)
    (now : TimestampMs) : Prop :=
  OverLimit d now ∧ Unheard earlier x now ∨ SilentSince earlier x now ∧
    ((∃ e ∈ sinceSnapshot earlier, registrationOf x e) → Monitored d now)

/-- The latest sign of life of an instance and its last activity agree. -/
inductive LastSign (x : String) (since : List PassEvent) (now activity : TimestampMs) : Prop where
  | none (quiet : ∀ e ∈ since, ¬ SignOfLife x e) (old : 5 * 1000 < elapsedMs now activity)
  | some {e : PassEvent} (mem : e ∈ since) (sign : SignOfLife x e) (at_ : activity = e.after.now)
      (last : ∀ e' ∈ since, SignOfLife x e' →
        e'.after.now.timestampMs.toNat ≤ e.after.now.timestampMs.toNat)

theorem LastSign.silent_iff {x : String} {since : List PassEvent} {now activity t : TimestampMs}
    (h : LastSign x since now activity) (hle : now.timestampMs.toNat ≤ t.timestampMs.toNat) :
    5 * 1000 < elapsedMs t activity ↔
      ∀ e ∈ since, SignOfLife x e → 5 * 1000 < elapsedMs t e.after.now := by
  cases h with
  | none quiet old =>
    refine iff_of_true ?_ fun e he hsign => absurd hsign (quiet e he)
    simp only [elapsedMs, trueAge] at old ⊢
    omega
  | @some e mem sign at_ last =>
    rw [at_]
    refine ⟨fun h e' he' hsign => ?_, fun h => h e mem sign⟩
    have := last e' he' hsign
    simp only [elapsedMs, trueAge] at h ⊢
    omega

/-- What is known, since the snapshot, of an instance it reported for a missing heartbeat. -/
def Followed (x : String) (since : List PassEvent) (a : TimedStore) : Prop :=
  ∀ d, a.store.lookup x = some d → ∃ created, d.createdTimestampMs = some created ∧
    ((∀ e ∈ since, ¬ registrationOf x e) → Monitored d a.now) ∧
    LastSign x since a.now (lastActivity d created)

variable {a b : TimedStore} {x : String} {since past : List PassEvent} {c : Section} {r : c.Reply}
  {q : Handler Unit}

/-- A new event that is a sign of life is the last one. -/
theorem LastSign.sign {e : PassEvent} (hsign : SignOfLife x e) (he : e.after = b)
    (hpast : ∀ e' ∈ since, e'.after.now.timestampMs.toNat ≤ b.now.timestampMs.toNat) :
    LastSign x (e :: since) b.now b.now := by
  refine .some List.mem_cons_self hsign (by rw [he]) ?_
  intro e' he' _
  rw [he]
  rcases List.mem_cons.mp he' with rfl | he'
  · rw [he]
  · exact hpast e' he'

theorem LastSign.quiet {e : PassEvent} {now later activity : TimestampMs}
    (h : LastSign x since now activity) (hsign : ¬ SignOfLife x e)
    (hle : now.timestampMs.toNat ≤ later.timestampMs.toNat) :
    LastSign x (e :: since) later activity := by
  cases h with
  | none quiet old =>
    refine .none (List.forall_mem_cons.mpr ⟨hsign, quiet⟩) ?_
    simp only [elapsedMs, trueAge] at old ⊢
    omega
  | some mem sign at_ last =>
    refine .some (List.mem_cons_of_mem e mem) sign at_ ?_
    exact List.forall_mem_cons.mpr ⟨fun h => absurd h hsign, last⟩

/-- One section, whoever makes it. -/
theorem Followed.step (h : Followed x since a) (hn : Named a.store) (hserve : timed c a r b)
    (hpast : ∀ e ∈ since, e.after.now.timestampMs.toNat ≤ a.now.timestampMs.toNat) {e : PassEvent}
    (hbeat : heartbeatOf x e ↔ c.beats x r) (hreg : registrationOf x e ↔ c.inserts x r)
    (he : e.after = b) : Followed x (e :: since) b := by
  intro d' hd'
  have hle := hserve.1
  have hpast' : ∀ e ∈ since, e.after.now.timestampMs.toNat ≤ b.now.timestampMs.toNat :=
    fun e he => (hpast e he).trans hle
  cases timed_entry hn hserve hd' with
  | inserted hins t hblank =>
    subst hblank
    refine ⟨b.now, rfl, fun hnone => absurd (hreg.mpr hins) (hnone e List.mem_cons_self), ?_⟩
    exact .sign (Or.inr (hreg.mpr hins)) he hpast'
  | @kept hins d hd hcreated htype hsilent halive =>
    obtain ⟨created, hc, hmonitored, hlast⟩ := h d hd
    refine ⟨created, hcreated.trans hc, fun hnone => ?_, ?_⟩
    · exact ((hmonitored fun e' he' => hnone e' (List.mem_cons_of_mem e he')).later hle).of_same
        hcreated htype
    · by_cases hb : c.beats x r
      · have hactivity : lastActivity d' created = b.now := by
          rw [lastActivity, halive hb]
          rfl
        rw [hactivity]
        exact .sign (Or.inl (hbeat.mpr hb)) he hpast'
      · have hactivity : lastActivity d' created = lastActivity d created := by
          rw [lastActivity, hsilent hb]
          rfl
        rw [hactivity]
        refine hlast.quiet ?_ hle
        intro hcase
        rcases hcase with hsign | hsign
        · exact hb (hbeat.mp hsign)
        · exact hins (hreg.mp hsign)

/-- A kill order reaches nobody but its own instance with its own reason. -/
private theorem killed_by_order (hn : Named a.store) {y : String} {reason : KillReason}
    {current : TimestampMs} {r : Except Status Bool} {d : InstanceDescription}
    (h : timed (.apply (killOrder (some ⟨y⟩) reason current)) a r b)
    (hk : KillsForSilence (.own (.apply (killOrder (some ⟨y⟩) reason current)) a r b) x d) :
    y = x ∧ reason = .healthCheckFailed := by
  obtain ⟨hd, hnone, d', hd', k, hk, hreason⟩ := hk
  obtain ⟨_, later, hrun⟩ := timed_apply_iff.mp h
  rcases apply_effect hn hrun with ⟨_, hsame⟩ | ⟨_, z, hz, he⟩
  · rw [hsame, hd] at hd'
    cases hd'
    rw [hnone] at hk
    cases hk
  · obtain rfl : (⟨y⟩ : InstanceId) = z := Option.some.inj hz.instanceId
    obtain ⟨u, hu, heff⟩ := he.present hd
    obtain rfl : d' = u := Option.some.inj (hd'.symm.trans hu)
    rcases heff.kill with hset | ⟨_, _, t, _, hset⟩
    · by_cases hx : x = y
      · subst hx
        rw [show incoming ⟨x⟩ (killOrder (some ⟨x⟩) reason current) x =
          killOrder (some ⟨x⟩) reason current from incoming_self _ _] at hset
        obtain ⟨t, _, hset⟩ := hset
        rw [hset] at hk
        cases hk
        exact ⟨rfl, KillReason.toI32_injective hreason⟩
      · rw [incoming_other hx] at hset
        rw [show d'.killInstanceRequest = d.killInstanceRequest from hset, hnone] at hk
        cases hk
    · rw [hset] at hk
      cases hk
      have hparent : KillReason.parentDead.toI32 = KillReason.healthCheckFailed.toI32 := hreason
      cases KillReason.toI32_injective hparent

/-- A section that leaves the store alone kills nobody. -/
private theorem store_ne_of_killsForSilence {d : InstanceDescription} (h : KillsForSilence (.own c a r b) x d) :
    b.store ≠ a.store := by
  intro hsame
  obtain ⟨hd, hnone, d', hd', k, hk, _⟩ := h
  rw [hsame, hd] at hd'
  cases hd'
  rw [hnone] at hk
  cases hk

/-- The verdict at the moment of the kill, in terms of what happened since the snapshot. -/
theorem Followed.verdict_iff (h : Followed x (sinceSnapshot past) a) {d : InstanceDescription}
    (hd : a.store.lookup x = some d) {t : TimestampMs}
    (hle : a.now.timestampMs.toNat ≤ t.timestampMs.toNat) :
    (unhealthInstanceExact d t).isSome ↔ OverLimit d t ∨ SilentSince past x t ∧
      ((∃ e ∈ sinceSnapshot past, registrationOf x e) → Monitored d t) := by
  obtain ⟨created, hc, hmonitored, hlast⟩ := h d hd
  have hsilent : Silent d t ↔ SilentSince past x t := by
    rw [SilentSince, ← hlast.silent_iff hle]
    simp [Silent, hc]
  rw [unhealthInstanceExact_isSome_iff, hsilent, and_comm (a := Monitored d t)]
  refine or_congr_right (and_congr_right fun _ => ⟨fun hm _ => hm, fun hm => ?_⟩)
  by_cases hreg : ∃ e ∈ sinceSnapshot past, registrationOf x e
  · exact hm hreg
  · exact (hmonitored fun e he hr => hreg ⟨e, he, hr⟩).later hle

/-- A kill is not stale exactly when its evidence stands. -/
theorem Followed.stands_iff (h : Followed x (sinceSnapshot past) a) {d : InstanceDescription}
    (hd : a.store.lookup x = some d) {t : TimestampMs}
    (hle : a.now.timestampMs.toNat ≤ t.timestampMs.toNat) :
    (unhealthInstanceExact d t).isSome ∧ Unheard past x t ↔ EvidenceStands past x d t := by
  rw [h.verdict_iff hd hle, EvidenceStands, or_and_right]
  refine or_congr_right ⟨fun hboth => hboth.1, fun hsilent => ⟨hsilent, hsilent.1.unheard⟩⟩

/-- What is left of a pass, and what its orders rest on. -/
inductive Pass (past : List PassEvent) (a : TimedStore) : Handler Unit → Prop where
  | start : Pass past a killUnhealthInstances
  | read {current : TimestampMs} (h : current.timestampMs.toNat ≤ a.now.timestampMs.toNat) :
      Pass past a (killUnhealthInstancesAt current)
  | killing {orders : List InstanceDescription} (h : ∀ order ∈ orders, ∃ x reason current,
      order = killOrder (some ⟨x⟩) reason current ∧
        (reason = .healthCheckFailed → Followed x (sinceSnapshot past) a)) :
      Pass past a (killAll orders)

/-- Nothing that happened since the snapshot contradicts what it reported. -/
private theorem snapshot_followed (hn : Named a.store) {current : TimestampMs} {entries : Entries}
    (he : FiniteMap.Enumerates entries a.store)
    (hle : current.timestampMs.toNat ≤ a.now.timestampMs.toNat) {order : InstanceDescription}
    (ho : order ∈ getUnhealthInstancesBy .exact current entries) :
    ∃ x reason, order = killOrder (some ⟨x⟩) reason current ∧
      (reason = .healthCheckFailed → Followed x [] a) := by
  obtain ⟨⟨x, d⟩, hmem, hverdict⟩ := List.mem_filterMap.mp ho
  obtain ⟨reason, hreason, rfl⟩ := Option.map_eq_some_iff.mp hverdict
  have hd := (he.mem_iff _).mp (List.mem_of_mem_filter hmem)
  refine ⟨x, reason, by rw [hn.key hd], ?_⟩
  rintro rfl d' hd'
  obtain rfl : d = d' := Option.some.inj (hd.symm.trans hd')
  obtain ⟨hmonitored, hsilent⟩ := of_healthCheckFailed hreason
  obtain ⟨created, hc, _⟩ := id hmonitored
  refine ⟨created, hc, fun _ => hmonitored.later hle, .none (by simp) ?_⟩
  have := hsilent created hc
  simp only [elapsedMs, trueAge] at this ⊢
  omega

/-- The invariant of a pass and of everything around it. -/
structure Passing (past : List PassEvent) (q : Handler Unit) (a : TimedStore) : Prop where
  named : Named a.store
  timely : ∀ e ∈ past, e.after.now.timestampMs.toNat ≤ a.now.timestampMs.toNat
  pass : Pass past a q

private theorem mem_of_mem_sinceSnapshot {e : PassEvent} (h : e ∈ sinceSnapshot past) : e ∈ past :=
  (List.takeWhile_sublist _).subset h

private theorem timely_cons {e : PassEvent} (hle : a.now.timestampMs.toNat ≤ b.now.timestampMs.toNat)
    (h : ∀ e ∈ past, e.after.now.timestampMs.toNat ≤ a.now.timestampMs.toNat) (he : e.after = b) :
    ∀ e' ∈ e :: past, e'.after.now.timestampMs.toNat ≤ b.now.timestampMs.toNat :=
  List.forall_mem_cons.mpr ⟨by rw [he], fun e' he' => (h e' he').trans hle⟩

theorem Passing.other (h : Passing past q a) (hserve : timed c a r b) :
    Passing (.other c a r b :: past) q b := by
  refine ⟨timed_named h.named hserve, timely_cons hserve.1 h.timely rfl, ?_⟩
  cases h.pass with
  | start => exact .start
  | read hcurrent => exact .read (hcurrent.trans hserve.1)
  | killing horders =>
    refine .killing fun order ho => ?_
    obtain ⟨x, reason, current, rfl, hfollowed⟩ := horders order ho
    refine ⟨x, reason, current, rfl, fun hr => ?_⟩
    exact (hfollowed hr).step h.named hserve
      (fun e he => h.timely e (mem_of_mem_sinceSnapshot he)) Iff.rfl Iff.rfl rfl

/-- One section of the pass: it keeps the invariant, and a kill for silence stands or not. -/
theorem Passing.own {next : c.Reply → Handler Unit} (h : Passing past (.call c next) a)
    (hserve : timed c a r b) :
    (∀ x d, KillsForSilence (.own c a r b) x d →
      ((unhealthInstanceExact d b.now).isSome ∧ Unheard past x b.now ↔ EvidenceStands past x d b.now)) ∧
    Passing (.own c a r b :: past) (next r) b := by
  have hnamed := timed_named h.named hserve
  have htimely := timely_cons (e := .own c a r b) hserve.1 h.timely rfl
  have hpass := h.pass
  generalize hq : Program.call c next = q at hpass
  cases hpass with
  | start =>
    simp only [killUnhealthInstances, locked, perform_bind] at hq
    cases hq
    obtain ⟨_, order, _, hrun⟩ := hserve
    obtain ⟨hnow, hsame⟩ := Prod.mk.inj hrun
    refine ⟨fun x d hk => absurd hsame.symm (store_ne_of_killsForSilence hk), hnamed, htimely, ?_⟩
    refine .read ?_
    rw [← hnow]
    exact le_refl _
  | @read current hcurrent =>
    simp only [killUnhealthInstancesAt, locked, perform_bind] at hq
    cases hq
    obtain ⟨hle, entries, hentries, hrun⟩ := hserve
    obtain ⟨hreported, hsame⟩ := Prod.mk.inj hrun
    refine ⟨fun x d hk => absurd hsame.symm (store_ne_of_killsForSilence hk), hnamed, htimely, ?_⟩
    refine .killing fun order ho => ?_
    rw [← hreported] at ho
    have hentries' : FiniteMap.Enumerates entries b.store := hsame ▸ hentries
    obtain ⟨x, reason, rfl, hfollowed⟩ :=
      snapshot_followed hnamed hentries' (hcurrent.trans hle) ho
    exact ⟨x, reason, current, rfl, hfollowed⟩
  | @killing orders horders =>
    cases orders with
    | nil => cases hq
    | cons order rest =>
      simp only [killAll, locked, perform_bind] at hq
      cases hq
      refine ⟨fun x d hk => ?_, hnamed, htimely, .killing fun order' ho => ?_⟩
      · obtain ⟨y, reason, current, rfl, hfollowed⟩ := horders order List.mem_cons_self
        obtain ⟨rfl, rfl⟩ := killed_by_order h.named hserve hk
        exact (hfollowed rfl).stands_iff hk.1 hserve.1
      · obtain ⟨y, reason, current, rfl, hfollowed⟩ := horders order' (List.mem_cons_of_mem order ho)
        refine ⟨y, reason, current, rfl, fun hr => ?_⟩
        exact (hfollowed hr).step h.named hserve
          (fun e he => h.timely e (mem_of_mem_sinceSnapshot he)) Iff.rfl Iff.rfl rfl

/-- In every run of a pass among other sections, no kill for silence is stale if and only if the
evidence of each stands when it is carried out. The pass may start in the middle of requests. -/
theorem neverStale_iff {s : InnerService} (hs : Named s) {now : TimestampMs}
    (h : Logged timed timed ⟨s, now⟩ killUnhealthInstances past q a) :
    NeverStale past ↔ ∀ e earlier, e :: earlier <:+ past → ∀ x d, KillsForSilence e x d →
      EvidenceStands earlier x d e.after.now := by
  obtain ⟨_, hevents⟩ := h.events (I := Passing)
    (P := fun earlier e => ∀ x d, KillsForSilence e x d →
      ((unhealthInstanceExact d e.after.now).isSome ∧ Unheard earlier x e.after.now ↔
        EvidenceStands earlier x d e.after.now))
    ⟨hs, by simp, .start⟩
    (fun past c next t r t' hpassing hserve => hpassing.own hserve)
    (fun past d q t r t' hpassing hserve => ⟨fun x d hk => absurd hk id, hpassing.other hserve⟩)
  constructor
  · intro hnever e earlier hsuffix x d hk
    exact (hevents e earlier hsuffix x d hk).mp (hnever e earlier hsuffix x d hk)
  · intro hstands e earlier hsuffix x d hk
    exact (hevents e earlier hsuffix x d hk).mpr (hstands e earlier hsuffix x d hk)

/-- A section at a given time, with the map listed by key. -/
def Section.executeAt (c : Section) (now : TimestampMs) (s : InnerService) : c.Reply × InnerService :=
  c.runBy .exact (Stream'.const now) (FiniteMap.listing s) s

private theorem timed_executeAt {s : InnerService} {before now : TimestampMs}
    (hle : before.timestampMs.toNat ≤ now.timestampMs.toNat) (hr : (c.executeAt now s).1 = r) :
    timed c ⟨s, before⟩ r ⟨(c.executeAt now s).2, now⟩ :=
  ⟨hle, FiniteMap.listing s, FiniteMap.enumerates_listing s, Prod.ext hr rfl⟩

/-- A browser that registers and is not heard of for nine seconds. -/
def silentBrowser : InnerService :=
  replay ∅ [(⟨1000⟩, .tryAddInstance
    { instanceId := some ⟨"chrome"⟩, instanceType := some InstanceType.chromeBrowser.toI32 })]

def silentBrowserOrder : InstanceDescription :=
  killOrder (some ⟨"chrome"⟩) .healthCheckFailed ⟨10000⟩

/-- The pass reads the clock and takes its snapshot. -/
def snapshotTaken : List PassEvent :=
  [.own (.getUnhealth ⟨10000⟩) ⟨silentBrowser, ⟨10000⟩⟩ [silentBrowserOrder] ⟨silentBrowser, ⟨10000⟩⟩,
    .own .now ⟨silentBrowser, ⟨1000⟩⟩ ⟨10000⟩ ⟨silentBrowser, ⟨10000⟩⟩]

private theorem snapshotTaken_logged : Logged timed timed ⟨silentBrowser, ⟨1000⟩⟩ killUnhealthInstances
    snapshotTaken (killAll [silentBrowserOrder]) ⟨silentBrowser, ⟨10000⟩⟩ := by
  have hstart : Logged timed timed ⟨silentBrowser, ⟨1000⟩⟩ killUnhealthInstances []
      (.call .now killUnhealthInstancesAt) ⟨silentBrowser, ⟨1000⟩⟩ := .nil
  have hread : Logged timed timed ⟨silentBrowser, ⟨1000⟩⟩ killUnhealthInstances
      [.own .now ⟨silentBrowser, ⟨1000⟩⟩ ⟨10000⟩ ⟨silentBrowser, ⟨10000⟩⟩]
      (.call (.getUnhealth ⟨10000⟩) killAll) ⟨silentBrowser, ⟨10000⟩⟩ :=
    .own hstart (timed_executeAt (by decide) rfl)
  exact .own hread (timed_executeAt (le_refl _) (by decide +kernel))

/-- With nothing in between, the evidence of the kill stands. -/
theorem neverStale_iff_undisturbed : NeverStale
    (.own (.apply silentBrowserOrder) ⟨silentBrowser, ⟨10000⟩⟩ (.ok true)
      ⟨((Section.apply silentBrowserOrder).executeAt ⟨10002⟩ silentBrowser).2, ⟨10002⟩⟩ ::
        snapshotTaken) := by
  have hreach : Reachable silentBrowser := Reachable.empty.replay _
  have hserve : timed (.apply silentBrowserOrder) ⟨silentBrowser, ⟨10000⟩⟩ (.ok true)
      ⟨((Section.apply silentBrowserOrder).executeAt ⟨10002⟩ silentBrowser).2, ⟨10002⟩⟩ :=
    timed_executeAt (by decide) (by decide +kernel)
  have hsnapshot : Logged timed timed ⟨silentBrowser, ⟨1000⟩⟩ killUnhealthInstances snapshotTaken
      (.call (.apply silentBrowserOrder) (fun _ => killAll [])) ⟨silentBrowser, ⟨10000⟩⟩ :=
    snapshotTaken_logged
  refine (neverStale_iff hreach.consistent.named (.own hsnapshot hserve)).mpr ?_
  intro e earlier hsuffix x d hk
  rcases List.suffix_cons_iff.mp hsuffix with heq | hsuffix
  · cases heq
    refine Or.inr ⟨?_, ?_⟩
    · intro e' he'
      cases he'
    · intro hreg
      obtain ⟨e', he', _⟩ := hreg
      cases he'
  · rcases List.suffix_cons_iff.mp hsuffix with heq | hsuffix
    · cases heq
      exact absurd rfl (store_ne_of_killsForSilence hk)
    · rcases List.suffix_cons_iff.mp hsuffix with heq | hsuffix
      · cases heq
        exact absurd rfl (store_ne_of_killsForSilence (c := .now) (r := ⟨10000⟩) hk)
      · cases List.suffix_nil.mp hsuffix

/-- The browser's heartbeat is accepted one millisecond after the snapshot. -/
def heartbeat : InstanceDescription := { instanceId := some ⟨"chrome"⟩, healthCheck := some {} }

def heardFrom : InnerService := ((Section.apply heartbeat).executeAt ⟨10001⟩ silentBrowser).2

def killedAfterHeartbeat : InnerService :=
  ((Section.apply silentBrowserOrder).executeAt ⟨10002⟩ heardFrom).2

def lateHeartbeat : List PassEvent :=
  .own (.apply silentBrowserOrder) ⟨heardFrom, ⟨10001⟩⟩ (.ok true) ⟨killedAfterHeartbeat, ⟨10002⟩⟩ ::
    .other (.apply heartbeat) ⟨silentBrowser, ⟨10000⟩⟩ (.ok true) ⟨heardFrom, ⟨10001⟩⟩ ::
      snapshotTaken

/-- The browser is killed for a missing heartbeat a millisecond after its heartbeat was accepted. -/
theorem lateHeartbeat_stale : Reachable silentBrowser ∧
    Logged timed timed ⟨silentBrowser, ⟨1000⟩⟩ killUnhealthInstances lateHeartbeat (.done ())
      ⟨killedAfterHeartbeat, ⟨10002⟩⟩ ∧
    (∃ e ∈ sinceSnapshot lateHeartbeat.tail, heartbeatOf "chrome" e ∧ e.after.now = ⟨10001⟩) ∧
    ¬ NeverStale lateHeartbeat := by
  have hlate : Logged timed timed ⟨silentBrowser, ⟨1000⟩⟩ killUnhealthInstances
      (.other (.apply heartbeat) ⟨silentBrowser, ⟨10000⟩⟩ (.ok true) ⟨heardFrom, ⟨10001⟩⟩ :: snapshotTaken)
      (.call (.apply silentBrowserOrder) (fun _ => killAll [])) ⟨heardFrom, ⟨10001⟩⟩ :=
    .other snapshotTaken_logged (timed_executeAt (by decide) (by decide +kernel))
  refine ⟨Reachable.empty.replay _, ?_, ?_, fun hnever => ?_⟩
  · exact .own hlate (timed_executeAt (by decide) (by decide +kernel))
  · exact ⟨_, List.mem_cons_self, ⟨rfl, rfl, rfl⟩, rfl⟩
  · have hkills : ∃ d, heardFrom.lookup "chrome" = some d ∧ d.killInstanceRequest = none ∧
        unhealthInstanceExact d ⟨10002⟩ = none := by decide +kernel
    obtain ⟨d, hd, hnone, hhealthy⟩ := hkills
    have hverdict := (hnever _ _ List.suffix_rfl "chrome" d ⟨hd, hnone, by decide +kernel⟩).1
    rw [show Event.after _ = (⟨killedAfterHeartbeat, ⟨10002⟩⟩ : TimedStore) from rfl, hhealthy] at hverdict
    cases hverdict

end WayPoint.Manager
