import WayPoint.Manager.Labels
import WayPoint.Manager.ServerTime

/-! The data of the status page: on a snapshot of a store that requests and kill passes have left, no time
is missing and no age is negative. -/
namespace WayPoint.Manager
open Foundations Program

/-- No reading of the clock that was made during the turns lies after `now`. -/
def ReadBy {ι : Type} (now : TimestampMs) (turns : List (ι × Moment)) : Prop :=
  ∀ turn ∈ turns, ∀ t ∈ turn.2.clock, t.timestampMs ≤ now.timestampMs

/-- Nothing on the page happens after `now`. -/
structure Browser.UntilNow (now : UInt64) (b : Browser) : Prop where
  registered : b.registeredAtMs ≤ now
  connected : ∀ parent t, b.connected = some (parent, t) → t ≤ now

/-- The page has of an instance what its description says. -/
structure Browser.Shows (d : InstanceDescription) (b : Browser) : Prop where
  browserId : b.browserId = d.instanceId
  registered : d.createdTimestampMs = some ⟨b.registeredAtMs⟩
  connected : d.parent.map (fun relationship => (relationship.instanceId, relationship.timestampMs)) =
    b.connected.map fun connected => (connected.1, some ⟨connected.2⟩)
  dead : d.killInstanceRequest.map (fun killInstanceRequest => killInstanceRequest.timestampMs) =
    b.deadAtMs.map fun deadAtMs => some ⟨deadAtMs⟩

theorem parseBrowser_shows {d : InstanceDescription} {b : Browser} (h : parseBrowser d = .ok b) : b.Shows d := by
  obtain ⟨created, hcreated, h⟩ := bind_eq_ok_iff.mp h
  obtain ⟨connected, hconnected, h⟩ := bind_eq_ok_iff.mp h
  obtain ⟨deadAtMs, hdead, h⟩ := bind_eq_ok_iff.mp h
  cases h
  refine ⟨rfl, getDM_throw_eq_ok_iff.mp hcreated, ?_, ?_⟩
  · rcases optionMapM_eq_ok_iff.mp hconnected with ⟨hnone, rfl⟩ | ⟨relationship, since, hparent, hsince, rfl⟩
    · rw [hnone]
      rfl
    · obtain ⟨t, ht, hsince⟩ := bind_eq_ok_iff.mp hsince
      cases hsince
      rw [hparent, Option.map_some, getDM_throw_eq_ok_iff.mp ht]
      rfl
  · rcases optionMapM_eq_ok_iff.mp hdead with ⟨hnone, rfl⟩ | ⟨kill, killedAt, hkill, hkilledAt, rfl⟩
    · rw [hnone]
      rfl
    · obtain ⟨t, ht, hkilledAt⟩ := bind_eq_ok_iff.mp hkilledAt
      cases hkilledAt
      rw [hkill, Option.map_some, getDM_throw_eq_ok_iff.mp ht]
      rfl

section times
variable {d : InstanceDescription} {now : UInt64} (hd : d.Stamped)
  (htimes : ∀ stamp ∈ d.timestamps, stamp.timestampMs ≤ now)
include hd htimes

private theorem parseBrowser_untilNow : ∃ b, parseBrowser d = .ok b ∧ b.UntilNow now := by
  obtain ⟨created, hcreated⟩ := Option.isSome_iff_exists.mp hd.created
  have hregistered : created.timestampMs ≤ now := htimes created (by
    simp [InstanceDescription.timestamps, hcreated])
  obtain ⟨deadAtMs, hdead⟩ : ∃ deadAtMs, (d.killInstanceRequest.mapM fun killInstanceRequest => do
      let timestamp ← killInstanceRequest.timestampMs.getDM
        (throw (.notFound "Timestamp not found on kill instance request"))
      return timestamp.timestampMs : Except Status _) = .ok deadAtMs := by
    rcases hk : d.killInstanceRequest with _ | killInstanceRequest
    · exact ⟨none, rfl⟩
    · obtain ⟨t, ht⟩ := Option.isSome_iff_exists.mp (hd.kill _ (Option.mem_def.mpr hk))
      exact ⟨some t.timestampMs, by rw [Option.mapM_some, ht]; rfl⟩
  rcases hp : d.parent with _ | relationship
  · refine ⟨⟨d.instanceId, created.timestampMs, none, deadAtMs⟩, ?_, hregistered, fun _ _ h => by cases h⟩
    rw [parseBrowser, hcreated, hp, hdead]
    rfl
  · obtain ⟨t, ht⟩ := Option.isSome_iff_exists.mp (hd.parent _ (Option.mem_def.mpr hp))
    refine ⟨⟨d.instanceId, created.timestampMs, some (relationship.instanceId, t.timestampMs), deadAtMs⟩, ?_,
      hregistered, ?_⟩
    · rw [parseBrowser, hcreated, hp, hdead, Option.mapM_some, ht]
      rfl
    · intro parent since h
      cases h
      exact htimes t (by simp [InstanceDescription.timestamps, hp, ht])

end times

private theorem checked_eq_wrapping {current event : UInt64} (h : event ≤ current) :
    Subtraction.checked current event = Subtraction.wrapping current event := if_pos h

/-- Without a negative age both builds make the same page. -/
theorem render_checked {browsers : List Browser} {now : UInt64} (h : ∀ b ∈ browsers, b.UntilNow now) :
    render .checked browsers now = render .wrapping browsers now := by
  have hconnections : (browsers.filterMap Browser.connection).mapM (renderConnection .checked now) =
      (browsers.filterMap Browser.connection).mapM (renderConnection .wrapping now) := by
    refine mapM_congr fun c hc => ?_
    obtain ⟨b, hb, hconnected⟩ := List.mem_filterMap.mp hc
    obtain ⟨⟨parent, t⟩, hparent, rfl⟩ := Option.map_eq_some_iff.mp hconnected
    simp only [renderConnection, checked_eq_wrapping ((h b hb).connected parent t hparent)]
  have hregistrations : browsers.mapM (renderRegistration .checked now) =
      browsers.mapM (renderRegistration .wrapping now) := by
    refine mapM_congr fun b hb => ?_
    simp only [renderRegistration, checked_eq_wrapping (h b hb).registered]
  rw [render, render, hconnections, hregistrations]

/-- Every browser of a store with all its times, none of which lies ahead, can be shown. -/
private theorem parseBrowsers_untilNow {s : InnerService} {now : TimestampMs}
    (hs : StampedWithin {t | t.timestampMs ≤ now.timestampMs} s) {entries : Entries}
    (he : FiniteMap.Enumerates entries s) :
    ∃ browsers, parseBrowsers (entries.map Sigma.snd) = .ok browsers ∧
      ∀ b ∈ browsers, b.UntilNow now.timestampMs := by
  have hparse : ∀ d ∈ (entries.map Sigma.snd).filter isChromeBrowser,
      ∃ b, parseBrowser d = .ok b ∧ b.UntilNow now.timestampMs := by
    intro d hd
    obtain ⟨e, hmem, rfl⟩ := List.mem_map.mp (List.mem_filter.mp hd).1
    obtain ⟨hstamped, htimes⟩ := hs e.1 e.2 ((he.mem_iff e).mp hmem)
    exact parseBrowser_untilNow hstamped htimes
  obtain ⟨browsers, hbrowsers⟩ := exists_mapM_eq_ok fun d hd => (hparse d hd).imp fun _ h => h.1
  refine ⟨browsers, hbrowsers, fun b hb => ?_⟩
  obtain ⟨d, hd, hdb⟩ := exists_of_mem_mapM hbrowsers hb
  obtain ⟨b', hb', huntil⟩ := hparse d hd
  rw [hb'] at hdb
  cases hdb
  exact huntil

variable {ι : Type} [DecidableEq ι]

/-- In a store that can be reached no time is missing, whatever its clock has shown. -/
theorem parseBrowsers_reached {works : ι → Work} {cfg : WorkConfig ι}
    (h : (workers works).Reaches (fun _ _ => True) (.initial ∅) cfg) {entries : Entries}
    (he : FiniteMap.Enumerates entries cfg.state) :
    ∃ browsers, parseBrowsers (entries.map Sigma.snd) = .ok browsers := by
  have hmax (t : UInt64) : t ≤ UInt64.ofNat (2 ^ 64 - 1) := by
    have := t.toNat_lt
    rw [UInt64.le_iff_toNat_le, show (UInt64.ofNat (2 ^ 64 - 1)).toNat = 2 ^ 64 - 1 from rfl]
    omega
  have hstamped : StampedWithin {t | t.timestampMs ≤ UInt64.ofNat (2 ^ 64 - 1)} cfg.state :=
    fun k d hd => ⟨reached_stamped h hd, fun stamp _ => hmax stamp.timestampMs⟩
  obtain ⟨browsers, hbrowsers, _⟩ := parseBrowsers_untilNow hstamped he
  exact ⟨browsers, hbrowsers⟩

/-- Whatever requests and kill passes were under way when the snapshot was taken, the page of the
snapshot shows its browsers, finds every time it asks for, and none of them ahead of a clock that did not
go back. Nothing ends it but an id that is cut inside a character. -/
theorem createStatusPage_untilNow (works : ι → Work) (turns : List (ι × Moment)) (now : TimestampMs)
    (hnow : ReadBy now turns) (entries : Entries)
    (he : FiniteMap.Enumerates entries (played works ∅ turns).state) :
    ∃ browsers, parseBrowsers (entries.map Sigma.snd) = .ok browsers ∧
      List.Forall₂ Browser.Shows ((entries.map Sigma.snd).filter isChromeBrowser) browsers ∧
      (∀ b ∈ browsers, b.UntilNow now.timestampMs) ∧
      createStatusPage .checked (entries.map Sigma.snd) now =
        createStatusPage .wrapping (entries.map Sigma.snd) now ∧
      ∀ e, createStatusPage .checked (entries.map Sigma.snd) now = .error e → e = .panic .notCharBoundary := by
  have hstamped : StampedWithin {t | t.timestampMs ≤ now.timestampMs} (played works ∅ turns).state := by
    intro k d hd
    obtain ⟨hall, hshown⟩ := (played_stampedWithin works turns).2 k d hd
    refine ⟨hall, fun stamp hstamp => ?_⟩
    obtain ⟨earlier, i, m, later, rfl, _, ht⟩ := hshown stamp hstamp
    exact hnow (i, m) (by simp) stamp ht
  obtain ⟨browsers, hbrowsers, huntil⟩ := parseBrowsers_untilNow hstamped he
  have hpage (sub : Subtraction) : createStatusPage sub (entries.map Sigma.snd) now =
      (render sub browsers now.timestampMs).mapError .panic := by
    rw [createStatusPage, hbrowsers]
    rfl
  refine ⟨browsers, hbrowsers, (forall₂_of_mapM hbrowsers).imp fun _ _ => parseBrowser_shows, huntil, ?_, ?_⟩
  · rw [hpage, hpage, render_checked huntil]
  · intro e he
    rw [hpage, render_checked huntil] at he
    cases hrender : render .wrapping browsers now.timestampMs with
    | ok page =>
      rw [hrender] at he
      cases he
    | error p =>
      rw [hrender, (render_eq_error hrender).1] at he
      exact (Except.error.inj he).symm

/-- A browser registers, an agent takes it for a child, the browser is killed, and a kill pass goes over
the rest. -/
def takenBrowser : Fin 4 → Work
  | 0 => .rpc (.tryAddInstance
      { instanceId := some ⟨"chrome"⟩, instanceType := some InstanceType.chromeBrowser.toI32 })
  | 1 => .rpc (.tryAddInstance
      { instanceId := some ⟨"agent"⟩, instanceType := some InstanceType.agent.toI32,
        children := some ⟨[{ instanceId := some ⟨"chrome"⟩ }]⟩ })
  | 2 => .rpc (.killUnhealth ⟨"chrome"⟩ .timeout ⟨9000⟩)
  | 3 => .killPass

def takenBrowserTurns : List (Fin 4 × Moment) :=
  [0, 0, 0, 1, 1, 1, 2, 2, 3, 3].map (fun i => (i, .sorted ⟨1000⟩))

def takenBrowserSnapshot : List InstanceDescription :=
  (FiniteMap.listing (played takenBrowser ∅ takenBrowserTurns).state).map Sigma.snd

theorem createStatusPage_untilNow_takenBrowser :
    ∃ browsers, parseBrowsers takenBrowserSnapshot = .ok browsers ∧
      List.Forall₂ Browser.Shows (takenBrowserSnapshot.filter isChromeBrowser) browsers ∧
      (∀ b ∈ browsers, b.UntilNow 1000) ∧
      createStatusPage .checked takenBrowserSnapshot ⟨1000⟩ = createStatusPage .wrapping takenBrowserSnapshot ⟨1000⟩ ∧
      ∀ e, createStatusPage .checked takenBrowserSnapshot ⟨1000⟩ = .error e → e = .panic .notCharBoundary := by
  refine createStatusPage_untilNow takenBrowser takenBrowserTurns ⟨1000⟩ ?_ _
    (FiniteMap.enumerates_listing _)
  intro turn hturn t ht
  obtain ⟨i, _, rfl⟩ := List.mem_map.mp hturn
  obtain ⟨n, hn⟩ := ht
  exact UInt64.le_of_eq (congrArg TimestampMs.timestampMs hn)

end WayPoint.Manager
