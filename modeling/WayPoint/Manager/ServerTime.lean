import WayPoint.Foundations.TwoRuns
import WayPoint.Manager.Lifetime
import WayPoint.Manager.Moments
import WayPoint.Manager.Sections
import WayPoint.Manager.Unstamped

/-! Times belong to the server: what clients write into the times of their messages is lost, and
every stored time is one the server's clock showed while somebody's section ran. -/
namespace WayPoint.Manager
open Foundations Program System SetTimestamp

variable {s s' : InnerService}

def Section.unstamped : Section → Section
  | .apply request => .apply request.unstamped
  | c => c

def Rpc.unstamped : Rpc → Rpc
  | .tryAddInstance request => .tryAddInstance request.unstamped
  | .tryUpdateInstanceDescription request => .tryUpdateInstanceDescription request.unstamped
  | .postInstanceDescription request => .postInstanceDescription request.unstamped
  | request => request

/-- The same work, its messages without the times nested in them. -/
def Work.unstamped : Work → Work
  | .rpc request => .rpc request.unstamped
  | .killPass => .killPass

/-- Calls that differ in nested times only. -/
def SameButStamps (c d : Section) : Prop := d.unstamped = c.unstamped

def EqualReply (c d : Section) (r : c.Reply) (r' : d.Reply) : Prop := r ≍ r'

private theorem during_unstamped (m : Moment) (c : Section) (s : InnerService) :
    (c.unstamped.during m s).1 ≍ (c.during m s).1 ∧
      (c.unstamped.during m s).2 = (c.during m s).2 := by
  cases c with
  | apply request =>
    simp only [Section.unstamped, Section.during, Section.run, Section.runBy, apply_unstamped]
    exact ⟨.rfl, trivial⟩
  | _ => exact ⟨.rfl, rfl⟩

private theorem during_sameButStamps {c d : Section} (h : SameButStamps c d) (m : Moment) (s : InnerService) :
    EqualReply c d (c.during m s).1 (d.during m s).1 ∧ (c.during m s).2 = (d.during m s).2 := by
  obtain ⟨hc, hc'⟩ := during_unstamped m c s
  obtain ⟨hd, hd'⟩ := during_unstamped m d s
  rw [show d.unstamped = c.unstamped from h] at hd hd'
  exact ⟨hc.symm.trans hd, hc'.symm.trans hd'⟩

/-- Programs that make the same calls up to nested times and give the same answer. -/
def AlikeHandler {α : Type} (p q : Handler α) : Prop := p.Related SameButStamps EqualReply Eq q

theorem AlikeHandler.related {α : Type} {p q : Handler α} (h : AlikeHandler p q) :
    p.Related SameButStamps EqualReply Eq q := h

theorem AlikeHandler.refl {α : Type} (p : Handler α) : AlikeHandler p p := by
  refine Program.Related.refl (fun _ => rfl) ?_
  induction p with
  | done a => exact True.intro
  | call c next ih => exact ⟨⟨rfl, fun _ _ => eq_of_heq⟩, ih⟩

theorem AlikeHandler.map {α β : Type} {p q : Handler α} (h : AlikeHandler p q) (f : α → β) :
    AlikeHandler (f <$> p) (f <$> q) :=
  h.bind fun _ _ => congrArg f

private theorem sameButStamps_apply (request : InstanceDescription) :
    SameButStamps (.apply request) (.apply request.unstamped) :=
  congrArg Section.apply (unstamped_unstamped request)

private theorem locked_apply_alike (request : InstanceDescription) :
    AlikeHandler (locked (.apply request)) (locked (.apply request.unstamped)) :=
  ⟨sameButStamps_apply request, fun _ _ => eq_of_heq⟩

private theorem insertNew_alike (request : InstanceDescription) :
    AlikeHandler (insertNewInstanceDescription request)
      (insertNewInstanceDescription request.unstamped) := by
  have hid : request.unstamped.instanceId = request.instanceId := rfl
  have htype : request.unstamped.instanceType = request.instanceType := rfl
  have hcreated : request.unstamped.createdTimestampMs = request.createdTimestampMs := rfl
  unfold insertNewInstanceDescription
  rw [hid, htype, hcreated]
  split
  · split
    · exact .refl _
    · refine ⟨rfl, fun inserted inserted' h => ?_⟩
      obtain rfl := eq_of_heq h
      cases inserted with
      | false => exact AlikeHandler.refl _
      | true =>
        refine ⟨sameButStamps_apply { request with instanceType := none }, fun r r' h => ?_⟩
        obtain rfl := eq_of_heq h
        rcases r with _ | _ | _ <;> exact AlikeHandler.refl _
  · exact .refl _

/-- A request goes the same way whatever times its message carries. -/
private theorem handler_alike (work : Work) : AlikeHandler work.handler work.unstamped.handler := by
  cases work with
  | killPass => exact .refl _
  | rpc rpc =>
    refine AlikeHandler.map ?_ some
    cases rpc with
    | tryAddInstance request =>
      refine AlikeHandler.map ?_ Answer.bool
      unfold tryAddInstance
      rw [(shapes_unstamped request).1]
      split
      · exact insertNew_alike request
      · exact .refl _
    | tryUpdateInstanceDescription request =>
      refine AlikeHandler.map ?_ Answer.bool
      unfold tryUpdateInstanceDescription
      rw [(shapes_unstamped request).2.1]
      split
      · exact locked_apply_alike request
      · exact .refl _
    | postInstanceDescription request =>
      refine AlikeHandler.map ?_ Answer.bool
      unfold postInstanceDescription
      rw [(shapes_unstamped request).2.2]
      split
      · exact locked_apply_alike request
      · exact .refl _
    | getInstance | getAllInstances | killUnhealth => exact .refl _

/-- All times are there, and all lie in `P`. -/
def StampedWithin (P : Set TimestampMs) (s : InnerService) : Prop :=
  ∀ k d, s.lookup k = some d → d.Stamped ∧ ∀ stamp ∈ d.timestamps, stamp ∈ P

section stamps
variable {P : Set TimestampMs} {clock : Clock} (hclock : ∀ t ∈ clock, t ∈ P)
include hclock

/-- A field's time is the one it had or a reading of the clock. -/
theorem Replaced.times_within {T : Type} [SetTimestamp T] {times : T → Option TimestampMs}
    (htimes : ∀ t v, times (setTimestamp t v) = some t) {value old new : Option T}
    (h : Replaced clock value old new) (hold : ∀ stamp ∈ old.bind times, stamp ∈ P) :
    ∀ stamp ∈ new.bind times, stamp ∈ P := by
  intro stamp hstamp
  obtain ⟨a, ha, htime⟩ := Option.mem_bind_iff.mp hstamp
  rcases h.mem ha with ha | ⟨v, _, t, ht, rfl⟩
  · exact hold stamp (Option.mem_bind_iff.mpr ⟨a, ha, htime⟩)
  · rw [htimes] at htime
    cases htime
    exact hclock stamp ht

theorem Effect.times_within {x : InstanceId} {request d d' : InstanceDescription} {k : String}
    (h : Effect clock x request k d d') (hd : ∀ stamp ∈ d.timestamps, stamp ∈ P) :
    ∀ stamp ∈ d'.timestamps, stamp ∈ P := by
  simp only [InstanceDescription.timestamps, List.forall_mem_append, Option.mem_toList] at hd ⊢
  obtain ⟨⟨⟨⟨⟨⟨⟨⟨⟨hcreated, hkill⟩, hservices⟩, hparent⟩, hchildren⟩, hhealth⟩, hproxy⟩, hsystem⟩, hgpu⟩, hllm⟩ := hd
  refine ⟨⟨⟨⟨⟨⟨⟨⟨⟨h.createdTimestampMs ▸ hcreated, ?_⟩, ?_⟩, ?_⟩, ?_⟩, ?_⟩, ?_⟩, ?_⟩, ?_⟩, ?_⟩
  · rcases h.kill with hk | ⟨_, _, t, ht, he⟩
    · exact hk.times_within hclock (fun _ _ => rfl) hkill
    · intro stamp hstamp
      rw [he] at hstamp
      cases hstamp
      exact hclock t ht
  · exact h.services.times_within hclock (fun _ _ => rfl) hservices
  · exact h.parent.times_within hclock (fun _ _ => rfl) hparent
  · intro stamp hstamp
    obtain ⟨r, hr, htime⟩ := List.mem_filterMap.mp hstamp
    rcases h.childList_mem hr with hr | ⟨q, _, t, ht, rfl⟩
    · exact hchildren stamp (List.mem_filterMap.mpr ⟨r, hr, htime⟩)
    · cases htime
      exact hclock stamp ht
  · exact h.healthCheck.times_within hclock (fun _ _ => rfl) hhealth
  · exact h.proxyMetrics.times_within hclock (fun _ _ => rfl) hproxy
  · exact h.systemMetrics.times_within hclock (fun _ _ => rfl) hsystem
  · exact h.gpuMetrics.times_within hclock (fun _ _ => rfl) hgpu
  · exact h.llmMetrics.times_within hclock (fun _ _ => rfl) hllm

end stamps

/-- A section adds no times but readings of its clock. -/
private theorem during_stampedWithin (hn : Named s) {P : Set TimestampMs} (hs : StampedWithin P s)
    {m : Moment} (hm : ∀ t ∈ m.clock, t ∈ P) (c : Section) :
    StampedWithin P (c.during m s).2 := by
  cases c with
  | apply request =>
    rcases hrun : (applyToInstanceDescription request).exec s m.clock with ⟨r, u, later⟩
    have hafter : ((Section.apply request).during m s).2 = u := by
      simp only [Section.during, Section.run, Section.runBy, hrun]
    rw [hafter]
    rcases apply_effect hn hrun with ⟨_, rfl⟩ | ⟨_, x, _, heffect⟩
    · exact hs
    · intro k d' hd'
      obtain ⟨d, hd, he⟩ := heffect.back hd'
      exact ⟨he.stamped (hs k d hd).1, he.times_within hm (hs k d hd).2⟩
  | insertBlank id t =>
    simp only [Section.during, Section.run, Section.runBy, insertBlank]
    split
    · exact hs
    · intro k d hd
      rw [FiniteMap.lookup_insert_eq] at hd
      split at hd
      · cases hd
        refine ⟨blank_stamped id t _, fun stamp hstamp => ?_⟩
        obtain rfl := List.mem_singleton.mp hstamp
        exact hm _ (Later.refl m.clock).head_mem
      · exact hs k d hd
  | remove key =>
    intro k d hd
    rw [show ((Section.remove key).during m s).2 = s.erase key from rfl,
      FiniteMap.lookup_erase_eq] at hd
    split at hd
    · cases hd
    · exact hs k d hd
  | now | get | getAll | getUnhealth => exact hs

variable {ι : Type} [DecidableEq ι]

/-- Work that has begun and is not over. -/
def Busy (cfg : WorkConfig ι) (i : ι) : Prop := ∃ c next, cfg.thread i = some (.call c next)

/-- The time was shown by the server's clock at a turn of work that was not over. -/
def ShownAtWork (works : ι → Work) (turns : List (ι × Moment)) (stamp : TimestampMs) : Prop :=
  ∃ earlier i m later, turns = earlier ++ (i, m) :: later ∧ Busy (played works ∅ earlier) i ∧
    stamp ∈ m.clock

theorem ShownAtWork.concat {works : ι → Work} {turns : List (ι × Moment)} {stamp : TimestampMs}
    (h : ShownAtWork works turns stamp) (turn : ι × Moment) :
    ShownAtWork works (turns ++ [turn]) stamp := by
  obtain ⟨earlier, i, m, later, rfl, hrest⟩ := h
  exact ⟨earlier, i, m, later ++ [turn], by simp, hrest⟩

theorem played_stampedWithin (works : ι → Work) (turns : List (ι × Moment)) :
    Named (played works ∅ turns).state ∧
      StampedWithin {t | ShownAtWork works turns t} (played works ∅ turns).state := by
  induction turns using List.reverseRecOn with
  | nil => exact ⟨empty_consistent.named, fun k d hd => by cases hd⟩
  | append_singleton turns turn ih =>
    obtain ⟨i, m⟩ := turn
    obtain ⟨hn, hs⟩ := ih
    have hold : StampedWithin {t | ShownAtWork works (turns ++ [(i, m)]) t}
        (played works ∅ turns).state := fun k d hd =>
      ⟨(hs k d hd).1, fun stamp hstamp => ((hs k d hd).2 stamp hstamp).concat (i, m)⟩
    rw [played_concat]
    rcases hi : (played works ∅ turns).thread i with _ | a | ⟨c, next⟩
    · rw [turn_start hi]
      exact ⟨hn, hold⟩
    · rw [turn_done hi]
      exact ⟨hn, hold⟩
    · rw [turn_call hi]
      exact ⟨serves_named hn (serves_during m c _), during_stampedWithin hn hold
        (fun t ht => ⟨turns, i, m, [], by simp, ⟨c, next, hi⟩, ht⟩) c⟩

/-- No time is missing in a store that can be reached. -/
theorem reached_stamped {works : ι → Work} {cfg : WorkConfig ι}
    (h : (workers works).Reaches (fun _ _ => True) (.initial ∅) cfg) {k : String} {d : InstanceDescription}
    (hd : cfg.state.lookup k = some d) : d.Stamped := by
  obtain ⟨turns, rfl⟩ := reaches_iff_played.mp h
  exact ((played_stampedWithin works turns).2 k d hd).1

/-- Without the times nested in the messages every turn leads to the same. -/
private theorem played_unstamped (works : ι → Work) (s : InnerService) (turns : List (ι × Moment)) :
    (played (fun i => (works i).unstamped) s turns).state = (played works s turns).state ∧
      ∀ i answer, (played (fun i => (works i).unstamped) s turns).finished i answer ↔
        (played works s turns).finished i answer := by
  have hstart : Config.Alike Eq (fun _ => SameButStamps) EqualReply (fun _ => Eq) (fun _ => true)
      (fun _ => False) (.initial s : WorkConfig ι) (.initial s : WorkConfig ι) :=
    ⟨rfl, fun _ _ => .none, fun _ _ _ hp => by cases hp⟩
  have hend : Config.Alike Eq (fun _ => SameButStamps) EqualReply (fun _ => Eq) (fun _ => true)
      (fun _ => False) (played works s turns) (played (fun i => (works i).unstamped) s turns) :=
    timetable_alike (fun _ (m n : Moment) => n = m) (fun i _ => (handler_alike (works i)).related)
    (fun i c d m n s u _ hmoment hcall hsame => by
      subst hmoment hsame
      exact during_sameButStamps hcall n s)
    (fun i hi => absurd rfl hi) (fun c m s u hc => absurd hc id) hstart
    (by
      rw [List.filter_true]
      exact List.forall₂_same.mpr fun _ _ => ⟨rfl, rfl⟩)
  refine ⟨hend.state.symm, fun i answer => ⟨fun hdone => ?_, fun hdone => ?_⟩⟩
  · obtain ⟨answer', hdone', rfl⟩ := hend.finished_back rfl hdone
    exact hdone'
  · obtain ⟨answer', hdone', rfl⟩ := hend.finished rfl hdone
    exact hdone'

/-- Two runs at the same moments whose messages differ only in nested times give the same answers and
leave the same store; and in a store reached every time is there and is the server's. -/
theorem times_are_the_servers (works works' : ι → Work)
    (h : ∀ i, (works' i).unstamped = (works i).unstamped) :
    (∀ s turns, (played works' s turns).state = (played works s turns).state ∧
      ∀ i answer, (played works' s turns).finished i answer ↔ (played works s turns).finished i answer) ∧
    ∀ turns k d, (played works ∅ turns).state.lookup k = some d →
      d.Stamped ∧ ∀ stamp ∈ d.timestamps, ShownAtWork works turns stamp := by
  refine ⟨fun s turns => ?_, fun turns => (played_stampedWithin works turns).2⟩
  obtain ⟨hstate, hdone⟩ := played_unstamped works s turns
  obtain ⟨hstate', hdone'⟩ := played_unstamped works' s turns
  rw [funext h] at hstate' hdone'
  exact ⟨hstate'.symm.trans hstate, fun i answer => (hdone' i answer).symm.trans (hdone i answer)⟩

/-- A registration and a heartbeat that says it comes from the year 2100. -/
def forgedHeartbeat (claimed : Option TimestampMs) : Fin 2 → Work
  | 0 => .rpc (.tryAddInstance
      { instanceId := some ⟨"chrome"⟩, instanceType := some InstanceType.chromeBrowser.toI32 })
  | 1 => .rpc (.tryUpdateInstanceDescription
      { instanceId := some ⟨"chrome"⟩, healthCheck := some ⟨claimed⟩ })

theorem times_are_the_servers_forgedHeartbeat :
    (played (forgedHeartbeat (some ⟨4102444800000⟩)) ∅
      ([0, 0, 0, 1, 1].map (fun i => (i, .sorted ⟨1000⟩)))).state =
    (played (forgedHeartbeat none) ∅ ([0, 0, 0, 1, 1].map (fun i => (i, .sorted ⟨1000⟩)))).state := by
  have hsame : ∀ i, (forgedHeartbeat (some ⟨4102444800000⟩) i).unstamped =
      (forgedHeartbeat none i).unstamped := by
    decide
  exact ((times_are_the_servers _ _ hsame).1 ∅ _).1

end WayPoint.Manager
