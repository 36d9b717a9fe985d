import WayPoint.Foundations.Serial
import WayPoint.Manager.Sections

/-! Handlers whose sections interleave. A registration releases the lock while its entry is half
made; as long as no other section names that id, every run is serializable. -/
namespace WayPoint.Manager
open Foundations Program

variable {P : Set String} {s s' u : InnerService}

variable {ι : Type}

/-- One thread for each request; nothing else touches the store. -/
def clients (requests : ι → Rpc) : System ι Section.Reply InnerService Answer where
  program i := (requests i).handler
  serves := serves
  environment _ _ := False

abbrev ClientConfig (ι : Type) := Config ι Section.Reply InnerService Answer

/-- Ids stay in place whatever the sections of any requests do to each other. -/
theorem named_reached [DecidableEq ι] {requests : ι → Rpc} {cfg cfg' : ClientConfig ι}
    (h : (clients requests).Reaches (fun _ _ => True) cfg cfg') (hn : Named cfg.state) :
    Named cfg'.state := by
  refine h.invariant (I := fun cfg => Named cfg.state) hn ?_
  intro a l b ha _ hstep
  cases hstep with
  | start i hi => exact ha
  | call i hi served => exact serves_named ha served
  | environment henv => exact absurd henv id

/-- The thread has inserted the entry of `x` and has not finished registering it. -/
def UnderWay (rpc : Rpc) (thread : Option (Handler Answer)) (x : String) : Prop :=
  ∃ request id c next, rpc = .tryAddInstance request ∧ request.instanceId = some id ∧
    id.instanceId = x ∧ thread = some (.call c next) ∧ ∀ t, c ≠ .insertBlank id t

def Registering (requests : ι → Rpc) (cfg : ClientConfig ι) (i : ι) (x : String) : Prop :=
  UnderWay (requests i) (cfg.thread i) x

/-- No section names an id that another request is registering. -/
def Undisturbed (requests : ι → Rpc) (cfg : ClientConfig ι) : Label ι Section → Prop
  | .call i c => ∀ x ∈ c.names, ∀ j, j ≠ i → ¬ Registering requests cfg j x
  | _ => True

/-- The ids some request is registering. -/
def halfMade (requests : ι → Rpc) (cfg : ClientConfig ι) : Set String :=
  {x | ∃ i, Registering requests cfg i x}

/-- The answers given so far, and the store less its half-made entries, are those of the same
requests run whole, one after another. -/
def Serializable (requests : ι → Rpc) (s : InnerService) (cfg : ClientConfig ι) : Prop :=
  ∃ history u, (clients requests).Serial s history u ∧
    (∀ i a, cfg.finished i a → (i, a) ∈ history) ∧
    (∀ i a, (i, a) ∈ history → cfg.thread i ≠ none) ∧
    Framed (halfMade requests cfg) cfg.state u

/-- Where a request stands: what is left to run, and what of it the store and history show. -/
inductive Phase (requests : ι → Rpc) (s : InnerService) (history : List (ι × Answer)) (i : ι) :
    Option (Handler Answer) → Prop where
  | idle (fresh : i ∉ history.map Prod.fst) : Phase requests s history i none
  | ready (fresh : i ∉ history.map Prod.fst) {c : Section} {next : c.Reply → Handler Answer}
      (waits : (requests i).handler = .call c next) : Phase requests s history i (some (.call c next))
  | inserted (fresh : i ∉ history.map Prod.fst) {request : InstanceDescription} {x : InstanceId}
      {t : InstanceType} {now : TimestampMs} (adds : requests i = .tryAddInstance request)
      (named : request.instanceId = some x) (runs : (requests i).handler = registration request x t)
      (entry : s.lookup x.instanceId = some (blankDescription x (some t.toI32) now)) :
      Phase requests s history i
        (some (.call (.apply { request with instanceType := none }) (settle x)))
  | undoing {request : InstanceDescription} {x : InstanceId} {t : InstanceType} {now : TimestampMs}
      {r : Except Status Bool} (adds : requests i = .tryAddInstance request)
      (named : request.instanceId = some x)
      (entry : s.lookup x.instanceId = some (blankDescription x (some t.toI32) now))
      (answered : (i, .bool r) ∈ history) :
      Phase requests s history i (some (.call (.remove x.instanceId) (fun _ => .done (.bool r))))
  | done {a : Answer} (answered : (i, a) ∈ history) : Phase requests s history i (some (.done a))

variable {requests : ι → Rpc} {history history' : List (ι × Answer)} {i : ι}
  {thread : Option (Handler Answer)}

theorem not_underWay_none {rpc : Rpc} (x : String) : ¬ UnderWay rpc none x := by
  intro hway
  obtain ⟨_, _, _, _, _, _, _, h, _⟩ := hway
  cases h

theorem not_underWay_done {rpc : Rpc} (a : Answer) (x : String) : ¬ UnderWay rpc (some (.done a)) x := by
  intro hway
  obtain ⟨_, _, _, _, _, _, _, h, _⟩ := hway
  cases h

/-- A request that has not called yet has inserted nothing. -/
theorem not_underWay_handler {rpc : Rpc} (x : String) : ¬ UnderWay rpc (some rpc.handler) x := by
  intro h
  obtain ⟨request, id, c, next, rfl, hid, rfl, hthread, hne⟩ := h
  rcases tryAdd_handler request with ⟨a, _, ha⟩ | ⟨y, t, hy, _, hr⟩
  · rw [ha] at hthread
    cases hthread
  · rw [hr] at hthread
    rw [hid] at hy
    cases hy
    cases hthread
    exact hne _ rfl

private theorem underWay_call {rpc : Rpc} {request : InstanceDescription} {id : InstanceId} {c : Section}
    {next : c.Reply → Handler Answer} (adds : rpc = .tryAddInstance request)
    (named : request.instanceId = some id) (hc : ∀ t, c ≠ .insertBlank id t) (x : String) :
    UnderWay rpc (some (.call c next)) x ↔ x = id.instanceId := by
  constructor
  · intro hway
    obtain ⟨request', id', c', next', h, hid, rfl, _, _⟩ := hway
    rw [adds] at h
    cases h
    rw [named] at hid
    cases hid
    rfl
  · rintro rfl
    exact ⟨request, id, c, next, adds, named, rfl, rfl, hc⟩

private theorem underWay_inserted {rpc : Rpc} {request request' : InstanceDescription} {id : InstanceId}
    (adds : rpc = .tryAddInstance request) (named : request.instanceId = some id)
    (next : Except Status Bool → Handler Answer) (x : String) :
    UnderWay rpc (some (.call (.apply request') next)) x ↔ x = id.instanceId :=
  underWay_call adds named (fun _ h => by cases h) x

private theorem underWay_undoing {rpc : Rpc} {request : InstanceDescription} {id : InstanceId}
    {key : String} (adds : rpc = .tryAddInstance request) (named : request.instanceId = some id)
    (next : Unit → Handler Answer) (x : String) :
    UnderWay rpc (some (.call (.remove key) next)) x ↔ x = id.instanceId :=
  underWay_call adds named (fun _ h => by cases h) x

theorem UnderWay.blank (hp : Phase requests s history i thread) {x : String}
    (h : UnderWay (requests i) thread x) :
    ∃ (t : InstanceType) (now : TimestampMs),
      s.lookup x = some (blankDescription ⟨x⟩ (some t.toI32) now) := by
  cases hp with
  | idle _ => exact absurd h (not_underWay_none x)
  | ready _ waits =>
    rw [← waits] at h
    exact absurd h (not_underWay_handler x)
  | inserted _ adds named _ entry =>
    obtain rfl := (underWay_inserted adds named _ x).mp h
    exact ⟨_, _, entry⟩
  | undoing adds named entry _ =>
    obtain rfl := (underWay_undoing adds named _ x).mp h
    exact ⟨_, _, entry⟩
  | done _ => exact absurd h (not_underWay_done _ x)

/-- A phase only depends on the entry the request is registering. -/
theorem Phase.keep (hp : Phase requests s history i thread)
    (hs : ∀ x, UnderWay (requests i) thread x → s'.lookup x = s.lookup x)
    (hh : ∀ a, (i, a) ∈ history → (i, a) ∈ history')
    (hfresh : i ∉ history.map Prod.fst → i ∉ history'.map Prod.fst) :
    Phase requests s' history' i thread := by
  cases hp with
  | idle fresh => exact .idle (hfresh fresh)
  | ready fresh waits => exact .ready (hfresh fresh) waits
  | inserted fresh adds named runs entry =>
    have hx := hs _ ((underWay_inserted adds named _ _).mpr rfl)
    exact .inserted (hfresh fresh) adds named runs (hx.trans entry)
  | undoing adds named entry answered =>
    have hx := hs _ ((underWay_undoing adds named _ _).mpr rfl)
    exact .undoing adds named (hx.trans entry) (hh _ answered)
  | done answered => exact .done (hh _ answered)

/-- The serial execution an interleaved one is compared with, at every moment. -/
structure Tracks (requests : ι → Rpc) (cfg : ClientConfig ι) (history : List (ι × Answer))
    (u : InnerService) : Prop where
  framed : Framed (halfMade requests cfg) cfg.state u
  alone : ∀ {i j x}, Registering requests cfg i x → Registering requests cfg j x → i = j
  phase : ∀ i, Phase requests cfg.state history i (cfg.thread i)

/-- The ids the other threads are registering. -/
def othersHalfMade (requests : ι → Rpc) (cfg : ClientConfig ι) (i : ι) : Set String :=
  {x | ∃ j, j ≠ i ∧ Registering requests cfg j x}

private theorem halfMade_eq (requests : ι → Rpc) (cfg : ClientConfig ι) (i : ι) :
    halfMade requests cfg = othersHalfMade requests cfg i ∪ {x | Registering requests cfg i x} := by
  ext x
  constructor
  · intro h
    obtain ⟨j, hj⟩ := h
    by_cases hji : j = i
    · exact Or.inr (hji ▸ hj)
    · exact Or.inl ⟨j, hji, hj⟩
  · intro hcase
    rcases hcase with ⟨j, _, hj⟩ | hi
    · exact ⟨j, hj⟩
    · exact ⟨i, hi⟩

variable {cfg : ClientConfig ι}

theorem Tracks.blank (h : Tracks requests cfg history u) {x : String}
    (hx : x ∈ halfMade requests cfg) : ∃ (t : InstanceType) (now : TimestampMs),
      cfg.state.lookup x = some (blankDescription ⟨x⟩ (some t.toI32) now) := by
  obtain ⟨j, hj⟩ := hx
  exact UnderWay.blank (h.phase j) hj

private theorem othersHalfMade_subset (requests : ι → Rpc) (cfg : ClientConfig ι) (i : ι) :
    othersHalfMade requests cfg i ⊆ halfMade requests cfg := by
  intro x h
  obtain ⟨j, _, hj⟩ := h
  exact ⟨j, hj⟩

theorem Tracks.blank_others (h : Tracks requests cfg history u) {i : ι} :
    ∀ x ∈ othersHalfMade requests cfg i, ∀ d, cfg.state.lookup x = some d → d.healthCheck = none := by
  intro x hx d hd
  obtain ⟨t, now, he⟩ := h.blank (othersHalfMade_subset requests cfg i hx)
  rw [hd] at he
  cases he
  rfl

theorem Tracks.framed_others (h : Tracks requests cfg history u) {i : ι}
    (hi : ∀ x, ¬ Registering requests cfg i x) :
    Framed (othersHalfMade requests cfg i) cfg.state u := by
  have hP : halfMade requests cfg = othersHalfMade requests cfg i := by
    rw [halfMade_eq requests cfg i]
    exact Set.union_eq_self_of_subset_right (fun x hx => absurd hx (hi x))
  rw [← hP]
  exact h.framed

/-- A thread whose next program registers nothing leaves the other threads' ids half made. -/
theorem framed_of_not_underWay {requests : ι → Rpc} {cfg : ClientConfig ι} {i : ι}
    {p : Handler Answer} {s u : InnerService} (hp : ∀ x, ¬ UnderWay (requests i) (some p) x)
    (h : Framed (othersHalfMade requests cfg i) s u) :
    Framed (othersHalfMade requests cfg i ∪ {x | UnderWay (requests i) (some p) x}) s u := by
  have hempty : {x | UnderWay (requests i) (some p) x} ⊆ othersHalfMade requests cfg i :=
    fun x hx => absurd hx (hp x)
  rw [Set.union_eq_self_of_subset_right hempty]
  exact h

/-- A half-made entry changes nothing for the request that is registering it. -/
theorem Tracks.framed_own (h : Tracks requests cfg history u) {x : InstanceId}
    {d : InstanceDescription} (hreg : ∀ y, Registering requests cfg i y ↔ y = x.instanceId)
    (entry : cfg.state.lookup x.instanceId = some d) :
    Framed (othersHalfMade requests cfg i) cfg.state (u.insert x.instanceId d) where
  outside {y} hy := by
    by_cases hyx : y = x.instanceId
    · rw [hyx, entry, Finmap.lookup_insert]
    · rw [Finmap.lookup_insert_of_ne _ hyx]
      apply h.framed.outside
      rw [halfMade_eq requests cfg i]
      intro hmem
      rcases hmem with hmem | hmem
      · exact hy hmem
      · exact hyx ((hreg y).mp hmem)
  absent {y} hy := by
    have hyx : y ≠ x.instanceId := by
      intro he
      obtain ⟨j, hj, hjreg⟩ := hy
      exact hj (h.alone hjreg ((hreg y).mpr he))
    rw [Finmap.lookup_insert_of_ne _ hyx]
    exact h.framed.absent (othersHalfMade_subset _ _ _ hy)

theorem fresh_cons {i : ι} {a : Answer} {history : List (ι × Answer)} (j : ι) (hj : j ≠ i)
    (h : j ∉ history.map Prod.fst) : j ∉ ((i, a) :: history).map Prod.fst := by
  simp only [List.map_cons, List.mem_cons, not_or]
  exact ⟨hj, h⟩

variable [DecidableEq ι]

/-- What has to be shown of one thread's step; the other threads follow along. -/
theorem Tracks.step (h : Tracks requests cfg history u) {i : ι} {p : Handler Answer}
    {s' u' : InnerService} (hsub : ∀ e ∈ history, e ∈ history')
    (hfresh : ∀ j, j ≠ i → j ∉ history.map Prod.fst → j ∉ history'.map Prod.fst)
    (hkept : ∀ x ∈ othersHalfMade requests cfg i, s'.lookup x = cfg.state.lookup x)
    (hphase : Phase requests s' history' i (some p))
    (hframed : Framed (othersHalfMade requests cfg i ∪ {x | UnderWay (requests i) (some p) x}) s' u')
    (halone : ∀ x, UnderWay (requests i) (some p) x → x ∉ othersHalfMade requests cfg i) :
    Tracks requests (Config.run { cfg with state := s' } i p) history' u' := by
  have hself (x : String) : Registering requests (Config.run { cfg with state := s' } i p) i x ↔
      UnderWay (requests i) (some p) x := by
    rw [Registering, Config.run_thread_self]
  have hother {j : ι} (hj : j ≠ i) (x : String) :
      Registering requests (Config.run { cfg with state := s' } i p) j x ↔
        Registering requests cfg j x := by
    rw [Registering, Config.run_thread_of_ne hj]
    rfl
  have hothers : othersHalfMade requests (Config.run { cfg with state := s' } i p) i =
      othersHalfMade requests cfg i := by
    ext x
    exact exists_congr fun j => and_congr_right fun hj => hother hj x
  refine ⟨?_, fun {j k x} hj hk => ?_, fun j => ?_⟩
  · rw [halfMade_eq requests _ i, hothers]
    simpa only [hself, Config.run_state] using hframed
  · by_cases hji : j = i <;> by_cases hki : k = i
    · rw [hji, hki]
    · subst hji
      exact absurd ⟨k, hki, (hother hki x).mp hk⟩ (halone x ((hself x).mp hj))
    · subst hki
      exact absurd ⟨j, hji, (hother hji x).mp hj⟩ (halone x ((hself x).mp hk))
    · exact h.alone ((hother hji x).mp hj) ((hother hki x).mp hk)
  · by_cases hji : j = i
    · subst hji
      rw [Config.run_thread_self]
      exact hphase
    · rw [Config.run_thread_of_ne hji]
      exact (h.phase j).keep (fun x hx => hkept x ⟨j, hji, hx⟩) (fun a ha => hsub _ ha) (hfresh j hji)

/-- A request of one section happens when that section does. -/
theorem Tracks.plain_step (h : Tracks requests cfg history u) (hu : Consistent u) {c : Section}
    {f : c.Reply → Answer} (hc : c.Plain)
    (runs : (requests i).handler = .call c (fun r => .done (f r)))
    (hi : cfg.thread i = some (.call c (fun r => .done (f r))))
    (hallowed : ∀ x ∈ c.names, x ∉ othersHalfMade requests cfg i) {r : c.Reply}
    (served : serves c cfg.state r s') :
    ∃ u', Runs serves u (requests i).handler (f r) u' ∧
      Tracks requests (Config.run { cfg with state := s' } i (.done (f r))) ((i, f r) :: history) u' := by
  have hnot : ∀ x, ¬ Registering requests cfg i x := by
    intro x
    rw [Registering, hi, ← runs]
    exact not_underWay_handler x
  obtain ⟨u', hserve, hframed, hkept⟩ :=
    hc.framed hallowed (h.framed_others hnot) hu h.blank_others served
  refine ⟨u', ?_, h.step (fun e he => List.mem_cons_of_mem _ he) fresh_cons hkept
    (.done List.mem_cons_self) (framed_of_not_underWay (not_underWay_done _) hframed)
    (fun x hx => absurd hx (not_underWay_done _ x))⟩
  rw [runs]
  exact .call hserve (.done _ _)

/-- The first section of a registration: refused at once, or half made from then on. -/
theorem Tracks.insert_step (h : Tracks requests cfg history u) {request : InstanceDescription}
    {x : InstanceId} {t : InstanceType} (adds : requests i = .tryAddInstance request)
    (named : request.instanceId = some x) (runs : (requests i).handler = registration request x t)
    (hi : cfg.thread i = some (registration request x t)) (fresh : i ∉ history.map Prod.fst)
    (hallowed : x.instanceId ∉ othersHalfMade requests cfg i) {r : Bool}
    (served : serves (.insertBlank x (some t.toI32)) cfg.state r s') :
    ∃ history' u', (clients requests).Appends history u history' u' ∧
      Tracks requests (Config.run { cfg with state := s' } i
        (if r then .call (.apply { request with instanceType := none }) (settle x)
          else .done (.bool (.ok false)))) history' u' := by
  have hnot : ∀ y, ¬ Registering requests cfg i y := by
    intro y
    rw [Registering, hi, ← runs]
    exact not_underWay_handler y
  have hframed := h.framed_others hnot
  have hlookup := hframed.outside hallowed
  rcases serves_insertBlank_iff.mp served with ⟨rfl, hx, rfl⟩ | ⟨rfl, hnone, now, rfl⟩
  · refine ⟨(i, .bool (.ok false)) :: history, u, Or.inr ⟨i, _, rfl, fresh, ?_⟩,
      h.step (fun e he => List.mem_cons_of_mem _ he) fresh_cons (fun _ _ => rfl)
        (.done List.mem_cons_self) (framed_of_not_underWay (not_underWay_done _) hframed)
        (fun y hy => absurd hy (not_underWay_done _ y))⟩
    have hserve : serves (.insertBlank x (some t.toI32)) u false u :=
      serves_insertBlank_iff.mpr (Or.inl ⟨rfl, hlookup ▸ hx, rfl⟩)
    change Runs serves u (requests i).handler _ u
    rw [runs]
    exact .call hserve (.done _ _)
  · have hset : {y | UnderWay (requests i)
        (some (.call (.apply { request with instanceType := none }) (settle x))) y} =
        {x.instanceId} := Set.ext fun y => underWay_inserted adds named _ y
    have hne {y : String} (hy : y ∈ othersHalfMade requests cfg i) : y ≠ x.instanceId :=
      fun he => hallowed (he ▸ hy)
    rw [if_pos rfl]
    refine ⟨history, u, Or.inl ⟨rfl, rfl⟩, h.step (fun e he => he) (fun _ _ h => h)
      (fun y hy => lookup_blank_ne (hne hy))
      (.inserted fresh adds named runs (Finmap.lookup_insert _)) ?_ (fun y hy => ?_)⟩
    · rw [hset]
      exact (hframed.insert hallowed _).hide (fun y hy => hframed.absent hy) (hlookup ▸ hnone)
    · obtain rfl := (underWay_inserted adds named _ y).mp hy
      exact hallowed

/-- The removal that ends a refused registration. -/
theorem Tracks.remove_step (h : Tracks requests cfg history u) {request : InstanceDescription}
    {x : InstanceId} {r : Except Status Bool} (adds : requests i = .tryAddInstance request)
    (named : request.instanceId = some x)
    (hi : cfg.thread i = some (.call (.remove x.instanceId) (fun _ => .done (.bool r))))
    (answered : (i, .bool r) ∈ history) :
    Tracks requests (Config.run { cfg with state := cfg.state.erase x.instanceId } i (.done (.bool r)))
      history u := by
  have hreg : Registering requests cfg i x.instanceId := by
    rw [Registering, hi]
    exact (underWay_undoing adds named _ _).mpr rfl
  have hne {y : String} (hy : y ∈ othersHalfMade requests cfg i) : y ≠ x.instanceId := by
    rintro rfl
    obtain ⟨j, hj, hjreg⟩ := hy
    exact hj (h.alone hjreg hreg)
  refine h.step (fun e he => he) (fun _ _ h => h) (fun y hy => Finmap.lookup_erase_ne (hne hy))
    (.done answered) (framed_of_not_underWay (not_underWay_done _) ?_)
    (fun y hy => absurd hy (not_underWay_done _ y))
  refine ⟨fun {y} hy => ?_, fun hy => h.framed.absent (othersHalfMade_subset _ _ _ hy)⟩
  rw [FiniteMap.lookup_erase_eq]
  split
  · next he =>
    rw [he, h.framed.absent ⟨i, hreg⟩]
  · next hx =>
    refine h.framed.outside fun ⟨j, hj⟩ => ?_
    by_cases hji : j = i
    · subst hji
      rw [Registering, hi] at hj
      exact hx ((underWay_undoing adds named _ y).mp hj)
    · exact hy ⟨j, hji, hj⟩

/-- The middle section of a registration: it happens here, accepted or refused. -/
theorem Tracks.apply_step (h : Tracks requests cfg history u) (hu : Consistent u)
    {request : InstanceDescription} {x : InstanceId} {t : InstanceType} {now : TimestampMs}
    (adds : requests i = .tryAddInstance request) (named : request.instanceId = some x)
    (runs : (requests i).handler = registration request x t)
    (hi : cfg.thread i =
      some (.call (.apply { request with instanceType := none }) (settle x)))
    (fresh : i ∉ history.map Prod.fst)
    (entry : cfg.state.lookup x.instanceId = some (blankDescription x (some t.toI32) now))
    (hallowed : ∀ y ∈ ({ request with instanceType := none } : InstanceDescription).names,
      y ∉ othersHalfMade requests cfg i) {r : Except Status Bool}
    (served : serves (.apply { request with instanceType := none }) cfg.state r s') :
    ∃ history' u', (clients requests).Appends history u history' u' ∧
      Tracks requests (Config.run { cfg with state := s' } i (settle x r)) history' u' := by
  have hreg : ∀ y, Registering requests cfg i y ↔ y = x.instanceId := by
    intro y
    rw [Registering, hi]
    exact underWay_inserted adds named _ y
  have hxu : u.lookup x.instanceId = none := h.framed.absent ⟨i, (hreg _).mpr rfl⟩
  have hxo : x.instanceId ∉ othersHalfMade requests cfg i := by
    intro hother
    obtain ⟨j, hj, hjreg⟩ := hother
    exact hj (h.alone hjreg ((hreg _).mpr rfl))
  have hmade := blank_consistent hu hxu t now
  obtain ⟨u', hserve, hframed, hkept⟩ := Section.Plain.framed (c := .apply _) True.intro hallowed
    (h.framed_own hreg entry) hmade h.blank_others served
  have hinsert : serves (.insertBlank x (some t.toI32)) u true
      (u.insert x.instanceId (blankDescription x (some t.toI32) now)) :=
    serves_insertBlank_iff.mpr (Or.inr ⟨rfl, hxu, now, rfl⟩)
  have hrun {a : Answer} {v : InnerService} (hrest : Runs serves u' (settle x r) a v) :
      Runs serves u (requests i).handler a v := by
    rw [runs]
    exact .call hinsert (.call hserve hrest)
  by_cases hr : r = .ok true
  · subst hr
    refine ⟨(i, .bool (.ok true)) :: history, u',
      Or.inr ⟨i, _, rfl, fresh, hrun (.done _ _)⟩, ?_⟩
    exact h.step (fun e he => List.mem_cons_of_mem _ he) fresh_cons hkept (.done List.mem_cons_self)
      (framed_of_not_underWay (not_underWay_done _) hframed)
      (fun y hy => absurd hy (not_underWay_done _ y))
  · have hsettle : settle x r = _ := settle_refused hr
    obtain ⟨clock, later, happly⟩ := serves_apply_iff.mp hserve
    obtain rfl : u' = _ := by
      rcases apply_cases hmade _ clock happly with ⟨_, hsame⟩ | ⟨htrue, _⟩
      · exact hsame
      · exact absurd htrue hr
    have hunder : {y | UnderWay (requests i) (some (settle x r)) y} = {x.instanceId} := by
      rw [hsettle]
      exact Set.ext fun y => underWay_undoing adds named _ y
    refine ⟨(i, .bool r) :: history, u, Or.inr ⟨i, _, rfl, fresh, hrun ?_⟩,
      h.step (fun e he => List.mem_cons_of_mem _ he) fresh_cons hkept ?_ ?_ ?_⟩
    · rw [hsettle]
      refine .call (r := ()) (serves_remove_iff.mpr rfl) ?_
      rw [FiniteMap.erase_insert_self hxu]
      exact .done _ _
    · rw [hsettle]
      have hentry : s'.lookup x.instanceId = some (blankDescription x (some t.toI32) now) := by
        rw [hframed.outside hxo, Finmap.lookup_insert]
      exact .undoing adds named hentry List.mem_cons_self
    · rw [hunder]
      exact hframed.hide (fun y hy => h.framed.absent (othersHalfMade_subset _ _ _ hy)) hxu
    · intro y hy
      have hyx : y ∈ {y | UnderWay (requests i) (some (settle x r)) y} := hy
      rw [hunder] at hyx
      obtain rfl : y = x.instanceId := hyx
      exact hxo

end WayPoint.Manager
