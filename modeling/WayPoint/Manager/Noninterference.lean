import WayPoint.Foundations.TwoRuns
import WayPoint.Manager.Metrics
import WayPoint.Manager.Moments
import WayPoint.Manager.Sections

/-! Two runs that differ in metrics posts: the other requests are answered alike, the kill loop
decides the same kills, and the stores differ in metrics only. -/
namespace WayPoint.Manager
open Foundations Program System

variable {s u : InnerService}

def Entries.unmetered (entries : Entries) : Entries :=
  entries.map (fun e => ⟨e.1, e.2.unmetered⟩)

private theorem getAllInstances_unmetered (query : AllInstancesQuery) (entries : Entries) :
    getAllInstances query entries.unmetered = getAllInstances query entries := by
  simp only [getAllInstances, Entries.unmetered, List.map_map, List.filter_map]
  rfl

private theorem getUnhealthInstancesBy_unmetered (age : AgeTest) (current : TimestampMs) (entries : Entries) :
    getUnhealthInstancesBy age current entries.unmetered = getUnhealthInstancesBy age current entries := by
  simp only [getUnhealthInstancesBy, Entries.unmetered, List.filter_map, List.filterMap_map]
  rfl

/-- A map that differs in metrics only lists the same entries, metrics apart, in the same order. -/
theorem SameButMetrics.entries_unmetered (h : SameButMetrics s u) {m n : Moment}
    (horder : n.keyOrder = m.keyOrder) : (n.entries u).unmetered = (m.entries s).unmetered := by
  simp only [Moment.entries, Entries.unmetered, FiniteMap.inKeyOrder, List.map_filterMap, horder,
    h.keys_eq]
  refine List.filterMap_congr fun k _ => ?_
  have hk := congrArg (Option.map (fun d => (⟨k, d⟩ : Sigma fun _ : String => InstanceDescription))) (h k)
  rw [Option.map_map, Option.map_map] at hk ⊢
  exact hk.symm

/-- Two orders of one map list the same ids. -/
private theorem getAllInstances_perm (query : AllInstancesQuery) {order order' : Entries}
    (h : FiniteMap.Enumerates order s) (h' : FiniteMap.Enumerates order' s) :
    (getAllInstances query order).Perm (getAllInstances query order') := by
  have hperm : order.Perm order' := Multiset.coe_eq_coe.mp (h.trans h'.symm)
  exact ((((hperm.map _).filter _).filter _).filter _).map _

/-- Replies that are the same up to metrics and the order of a listing. -/
inductive Section.Alike : (c d : Section) → c.Reply → d.Reply → Prop where
  | same (c : Section) (r : c.Reply) : Alike c c r r
  | get (instanceId : InstanceId) {r r' : Except Status InstanceDescription}
      (h : r.map InstanceDescription.unmetered = r'.map InstanceDescription.unmetered) :
      Alike (.get instanceId) (.get instanceId) r r'
  | getAll (query : AllInstancesQuery) {ids ids' : List InstanceId} (h : ids.Perm ids') :
      Alike (.getAll query) (.getAll query) ids ids'

theorem Section.Alike.of_eq {c : Section} {r r' : c.Reply} (h : r = r') : Alike c c r r' := by
  subst h
  exact .same c r

/-- The answers of two requests, up to metrics and the order of a listing. -/
inductive Answer.Alike : Answer → Answer → Prop where
  | bool (result : Except Status Bool) : Alike (.bool result) (.bool result)
  | description {r r' : Except Status InstanceDescription}
      (h : r.map InstanceDescription.unmetered = r'.map InstanceDescription.unmetered) :
      Alike (.description r) (.description r')
  | instanceIds {ids ids' : List InstanceId} (h : ids.Perm ids') :
      Alike (.instanceIds ids) (.instanceIds ids')

theorem Answer.Alike.refl (a : Answer) : Alike a a := by
  cases a with
  | bool result => exact .bool result
  | description result => exact .description rfl
  | instanceIds ids => exact .instanceIds (.refl ids)

def Section.Listed : Section → Prop
  | .getUnhealth _ => True
  | _ => False

/-- The same clock serves a section alike on two stores that differ in metrics only. The order of the
map may differ where nobody is judged in that order. -/
theorem during_alike {m n : Moment} (hclock : n.clock = m.clock) (c : Section)
    (horder : c.Listed → n.keyOrder = m.keyOrder) (h : SameButMetrics s u) :
    c.Alike c (c.during m s).1 (c.during n u).1 ∧ SameButMetrics (c.during m s).2 (c.during n u).2 := by
  unfold Section.during Section.run
  rw [hclock]
  cases c with
  | now => exact ⟨.same _ _, h⟩
  | insertBlank id t =>
    have hsame : (s.lookup id.instanceId).isSome = (u.lookup id.instanceId).isSome := by
      simpa only [Option.isSome_map] using congrArg Option.isSome (h id.instanceId)
    simp only [Section.runBy, insertBlank, hsame]
    split
    · exact ⟨.same _ _, h⟩
    · exact ⟨.same _ _, h.insert _ rfl⟩
  | apply request =>
    have hrun := blind_apply request s u m.clock h
    exact ⟨.of_eq hrun.result, hrun.store⟩
  | remove key => exact ⟨.same _ _, h.erase key⟩
  | get id =>
    refine ⟨.get id ?_, h⟩
    simp only [Section.runBy, getInstanceDescription]
    cases hs : s.lookup id.instanceId with
    | none => rw [h.absent hs]
    | some d =>
      obtain ⟨e, hu, hde⟩ := h.present hs
      rw [hu]
      exact congrArg Except.ok hde
  | getAll query =>
    refine ⟨.getAll query ?_, h⟩
    have hsame : getAllInstances query (m.entries u) = getAllInstances query (m.entries s) := by
      rw [← getAllInstances_unmetered, h.entries_unmetered rfl, getAllInstances_unmetered]
    simp only [Section.runBy, ← hsame]
    exact getAllInstances_perm query (m.enumerates_entries u) (n.enumerates_entries u)
  | getUnhealth current =>
    refine ⟨.of_eq ?_, h⟩
    simp only [Section.runBy]
    rw [← getUnhealthInstancesBy_unmetered, ← h.entries_unmetered (horder True.intro),
      getUnhealthInstancesBy_unmetered]

variable {ι : Type}

def Work.isPost : Work → Bool
  | .rpc (.postInstanceDescription _) => true
  | _ => false

/-- A piece of work makes the same calls, and only the kill loop judges a whole map. -/
def SameCall (work : Work) (c d : Section) : Prop := d = c ∧ (c.Listed → work = .killPass)

/-- The answers to a piece of work, the same up to metrics and the order of a listing. -/
def SameAnswer (work : Work) (a b : Option Answer) : Prop :=
  Option.Rel Answer.Alike a b ∧ (work = .killPass → b = a)

theorem SameAnswer.refl (work : Work) (a : Option Answer) : SameAnswer work a a := by
  refine ⟨?_, fun _ => rfl⟩
  cases a with
  | none => exact .none
  | some answer => exact .some (.refl answer)

/-- A section that answers alike on stores that differ in metrics only. -/
def Section.Settled (work : Work) (c : Section) : Prop :=
  SameCall work c c ∧ ∀ r r', Alike c c r r' → r = r'

private theorem settled_apply (work : Work) (request : InstanceDescription) :
    (Section.apply request).Settled work := by
  refine ⟨⟨rfl, fun h => absurd h id⟩, fun r r' h => ?_⟩
  cases h
  rfl

private theorem tryAdd_settled (work : Work) (request : InstanceDescription) :
    (Rpc.tryAddInstance request).handler.Within (Section.Settled work) := by
  rcases tryAdd_handler request with ⟨a, _, h⟩ | ⟨x, t, _, _, h⟩
  · rw [h]
    exact True.intro
  · rw [h]
    have hinsert : (Section.insertBlank x (some t.toI32)).Settled work := by
      refine ⟨⟨rfl, fun h => absurd h id⟩, fun r r' h => ?_⟩
      cases h
      rfl
    have hremove : (Section.remove x.instanceId).Settled work :=
      ⟨⟨rfl, fun h => absurd h id⟩, fun r r' _ => rfl⟩
    refine ⟨hinsert, fun inserted => ?_⟩
    cases inserted with
    | false => exact True.intro
    | true =>
      refine ⟨settled_apply work _, fun r => ?_⟩
      unfold settle
      split
      · exact True.intro
      · exact ⟨hremove, fun _ => True.intro⟩

private theorem killPass_settled : Work.killPass.handler.Within (Section.Settled .killPass) := by
  have hkills (orders : List InstanceDescription) :
      (killAll orders).Within (Section.Settled .killPass) := by
    induction orders with
    | nil => exact True.intro
    | cons order rest ih => exact ⟨settled_apply _ order, fun _ => ih⟩
  have hnow : Section.now.Settled .killPass := by
    refine ⟨⟨rfl, fun h => absurd h id⟩, fun r r' h => ?_⟩
    cases h
    rfl
  have hlist (t : TimestampMs) : (Section.getUnhealth t).Settled .killPass := by
    refine ⟨⟨rfl, fun _ => rfl⟩, fun r r' h => ?_⟩
    cases h
    rfl
  refine Within.bind ?_ fun _ => True.intro
  exact ⟨hnow, fun t => ⟨hlist t, hkills⟩⟩

/-- All work but a post goes on alike when it is served alike. -/
private theorem handler_related {work : Work} (h : ¬ work.isPost) :
    work.handler.Related (SameCall work) Section.Alike (SameAnswer work) work.handler := by
  have hsettled {rpc : Rpc} (hrpc : rpc.handler.Within (Section.Settled (.rpc rpc))) :
      (Work.rpc rpc).handler.Related (SameCall (.rpc rpc)) Section.Alike (SameAnswer (.rpc rpc))
        (Work.rpc rpc).handler :=
    .refl (SameAnswer.refl _) (hrpc.bind fun _ => True.intro)
  cases work with
  | killPass => exact .refl (SameAnswer.refl _) killPass_settled
  | rpc rpc =>
    cases rpc with
    | tryAddInstance request => exact hsettled (tryAdd_settled _ request)
    | tryUpdateInstanceDescription request =>
      refine hsettled ?_
      simp only [Rpc.handler, Manager.tryUpdateInstanceDescription]
      split
      · exact ⟨settled_apply _ request, fun _ => True.intro⟩
      · exact True.intro
    | postInstanceDescription request => exact absurd rfl h
    | getInstance instanceId =>
      refine ⟨⟨rfl, fun h => absurd h id⟩, fun r r' hr => ⟨.some ?_, fun h => by cases h⟩⟩
      cases hr with
      | same => exact .refl _
      | get _ hr => exact .description hr
    | getAllInstances query =>
      refine ⟨⟨rfl, fun h => absurd h id⟩, fun r r' hr => ⟨.some ?_, fun h => by cases h⟩⟩
      cases hr with
      | same => exact .refl _
      | getAll _ hr => exact .instanceIds hr
    | killUnhealth instanceId reason current =>
      exact hsettled ⟨settled_apply _ _, fun _ => True.intro⟩

theorem handler_post {work : Work} (h : work.isPost) :
    work.handler.Within (fun c => ∃ request, postShape request ∧ c = .apply request) := by
  cases work with
  | killPass => cases h
  | rpc rpc =>
    cases rpc with
    | postInstanceDescription request =>
      refine Within.bind ?_ fun _ => True.intro
      simp only [Rpc.handler, Manager.postInstanceDescription]
      split
      · next hshape => exact ⟨⟨request, hshape, rfl⟩, fun _ => True.intro⟩
      · exact True.intro
    | _ => cases h

/-- A turn of the same thread at the same clock readings. A pass of the kill loop also finds the map
in the same order; a listing need not. -/
def SameTurn (works : ι → Work) (turn turn' : ι × Moment) : Prop :=
  turn.1 = turn'.1 ∧ turn'.2.clock = turn.2.clock ∧
    (works turn.1 = .killPass → turn'.2.keyOrder = turn.2.keyOrder)

/-- Without the turns of the posts everything else goes the same way: the stores agree up to metrics,
every request is answered alike, and at every moment the kill loop has the same kills before it. -/
theorem posts_do_not_interfere [DecidableEq ι] (works : ι → Work) (s : InnerService)
    {turns turns' : List (ι × Moment)}
    (h : List.Forall₂ (SameTurn works) (turns.filter (fun turn => !(works turn.1).isPost)) turns') :
    SameButMetrics (played works s turns).state (played works s turns').state ∧
    (∀ i, ¬ (works i).isPost →
      (∀ answer, (played works s turns).finished i answer → ∃ answer',
        (played works s turns').finished i answer' ∧ Option.Rel Answer.Alike answer answer') ∧
      ∀ answer', (played works s turns').finished i answer' → ∃ answer,
        (played works s turns).finished i answer ∧ Option.Rel Answer.Alike answer answer') ∧
    ∀ i, works i = .killPass → (played works s turns').thread i = (played works s turns).thread i := by
  have hstart : Config.Alike SameButMetrics (fun i => SameCall (works i)) Section.Alike
      (fun i => SameAnswer (works i)) (fun i => !(works i).isPost)
      (fun c => ∃ request, postShape request ∧ c = .apply request)
      (.initial s : WorkConfig ι) (.initial s : WorkConfig ι) :=
    ⟨.refl s, fun _ _ => .none, fun _ _ _ hp => by cases hp⟩
  have hend : Config.Alike SameButMetrics (fun i => SameCall (works i)) Section.Alike
      (fun i => SameAnswer (works i)) (fun i => !(works i).isPost)
      (fun c => ∃ request, postShape request ∧ c = .apply request)
      (played works s turns) (played works s turns') := timetable_alike
    (fun i (m n : Moment) => n.clock = m.clock ∧ (works i = .killPass → n.keyOrder = m.keyOrder))
    (fun i hi => handler_related (by simpa using hi))
    (fun i c d m n s u _ hmoment hcall hsame => by
      obtain ⟨rfl, hlisted⟩ := hcall
      exact during_alike hmoment.1 d (fun hd => hmoment.2 (hlisted hd)) hsame)
    (fun i hi => handler_post (by simpa using hi))
    (fun c m s u hpost hsame => by
      obtain ⟨request, hshape, rfl⟩ := hpost
      exact fun k => (apply_post hshape s m.clock k).trans (hsame k))
    hstart h
  refine ⟨hend.state, fun i hi => ⟨fun answer hdone => ?_, fun answer' hdone => ?_⟩, fun i hi => ?_⟩
  · obtain ⟨answer', hdone', hsame⟩ := hend.finished (by simpa using hi) hdone
    exact ⟨answer', hdone', hsame.1⟩
  · obtain ⟨answer, hdone', hsame⟩ := hend.finished_back (by simpa using hi) hdone
    exact ⟨answer, hdone', hsame.1⟩
  · exact hend.thread_eq (by simp [hi, Work.isPost]) (fun _ _ hcall => hcall.1) Section.Alike.same
      fun _ _ hsame => hsame.2 hi

/-- A browser registers, posts metrics and falls silent; then a pass of the kill loop comes by. -/
def telemetry : Nat → Work
  | 0 => .rpc (.tryAddInstance
      { instanceId := some ⟨"chrome"⟩, instanceType := some InstanceType.chromeBrowser.toI32 })
  | 1 => .rpc (.postInstanceDescription
      { instanceId := some ⟨"chrome"⟩, proxyMetrics := some { activeConnections := 1 } })
  | _ => .killPass

def silence : List (Nat × Moment) :=
  [0, 0, 0, 1, 1].map (fun i => (i, .sorted ⟨1000⟩)) ++
    [2, 2, 2, 2].map (fun i => (i, .sorted ⟨9000⟩))

theorem posts_do_not_interfere_silence : ∃ d,
    (played telemetry ∅ (silence.filter (fun turn => !(telemetry turn.1).isPost))).state.lookup
      "chrome" = some d ∧ d.killInstanceRequest.isSome := by
  have hturns : List.Forall₂ (SameTurn telemetry)
      (silence.filter (fun turn => !(telemetry turn.1).isPost))
      (silence.filter (fun turn => !(telemetry turn.1).isPost)) :=
    List.forall₂_same.mpr fun _ _ => ⟨rfl, rfl, fun _ => rfl⟩
  have hsame := (posts_do_not_interfere telemetry ∅ hturns).1
  have hkilled : ((played telemetry ∅ silence).state.lookup "chrome").any
      (fun d => d.killInstanceRequest.isSome) := by
    decide +kernel
  cases hd : (played telemetry ∅ silence).state.lookup "chrome" with
  | none =>
    rw [hd] at hkilled
    cases hkilled
  | some d =>
    rw [hd] at hkilled
    obtain ⟨e, he, hde⟩ := hsame.present hd
    exact ⟨e, he, killInstanceRequest_unmetered hde ▸ hkilled⟩

end WayPoint.Manager
