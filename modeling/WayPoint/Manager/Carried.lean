import WayPoint.Foundations.Trace
import WayPoint.Manager.Consistency

/-! Whole requests: which ones are carried out, on which store and with which update, and that all
others change nothing. -/
namespace WayPoint.Manager
open Foundations Program

variable {s s' base : InnerService} {clock : Clock} {x : InstanceId} {request : InstanceDescription}

/-- What a request asks `apply_to_instance_description` for, when its shape lets it come that far. -/
def Rpc.update : Rpc → Option InstanceDescription
  | .tryAddInstance request =>
    if addShape request then some { request with instanceType := none } else none
  | .tryUpdateInstanceDescription request => if updateShape request then some request else none
  | .postInstanceDescription request => if postShape request then some request else none
  | .killUnhealth instanceId reason current => some (killOrder (some instanceId) reason current)
  | .getInstance _ | .getAllInstances _ => none

/-- The store that update is applied to: the one found, a registration's blank entry added. -/
inductive Rpc.Base (s : InnerService) : Rpc → InnerService → Prop where
  | registering {request : InstanceDescription} {x : InstanceId} (t : InstanceType)
      (now : TimestampMs) (instanceId : request.instanceId = some x)
      (instanceType : request.instanceType = some t.toI32) (fresh : s.lookup x.instanceId = none) :
      Base s (.tryAddInstance request) (s.insert x.instanceId (blankDescription x (some t.toI32) now))
  | found {rpc : Rpc} (h : ∀ request, rpc ≠ .tryAddInstance request) : Base s rpc s

/-- The request gets through: its update is accepted where it is applied. -/
structure Rpc.Carries (rpc : Rpc) (s base : InnerService) (x : InstanceId)
    (request : InstanceDescription) : Prop where
  update : rpc.update = some request
  starts : rpc.Base s base
  accepted : Accepted base x request

/-- The ways a request that answers `true` changes a store. -/
inductive Mutates (s s' : InnerService) : Prop where
  | updated {clock : Clock} {x : InstanceId} {request : InstanceDescription}
      (accepted : Accepted s x request) (applied : Applied clock x request s s')
  | registered {clock : Clock} {x : InstanceId} {request : InstanceDescription}
      (t : InstanceType) (now : TimestampMs) (fresh : s.lookup x.instanceId = none)
      (accepted : Accepted (s.insert x.instanceId (blankDescription x (some t.toI32) now)) x request)
      (applied : Applied clock x request
        (s.insert x.instanceId (blankDescription x (some t.toI32) now)) s')

theorem Mutates.consistent (hs : Consistent s) (h : Mutates s s') : Consistent s' := by
  rcases h with ⟨hx, ha⟩ | ⟨t, now, fresh, hx, ha⟩
  · exact ha.consistent hs hx.toAccepts
  · exact ha.consistent (blank_consistent hs fresh t now) hx.toAccepts

theorem Rpc.Base.consistent {rpc : Rpc} (h : rpc.Base s base) (hs : Consistent s) :
    Consistent base := by
  cases h with
  | registering t now _ _ fresh => exact blank_consistent hs fresh t now
  | found => exact hs

theorem Rpc.Carries.mutates {rpc : Rpc} (h : rpc.Carries s base x request)
    (ha : Applied clock x request base s') : Mutates s s' := by
  obtain ⟨hupdate, hbase, hx⟩ := h
  cases hbase with
  | @registering request' y t now hid _ fresh =>
    obtain rfl : y = x := by
      rw [Rpc.update, Option.ite_none_right_eq_some, Option.some.injEq] at hupdate
      obtain ⟨_, rfl⟩ := hupdate
      exact Option.some.inj (hid.symm.trans hx.instanceId)
    exact .registered t now fresh hx ha
  | found => exact .updated hx ha

/-- Acceptance looks at life, membership and parents only. -/
theorem Accepts.of_same {u : InnerService} (h : Accepts s x request)
    (halive : ∀ y, Alive s y → Alive u y) (hmem : ∀ y, y ∈ s → y ∈ u)
    (hparent : ∀ c p, HasParent u c p → HasParent s c p) : Accepts u x request where
  alive := halive _ h.alive
  parent r hr := by
    obtain ⟨k, hk, hlive, hne, hfree⟩ := h.parent r hr
    exact ⟨k, hk, halive k hlive, hne, fun p hp => hfree p (hparent _ p hp)⟩
  child r hr := by
    obtain ⟨k, hk, hks, hne, hfree⟩ := h.child r hr
    exact ⟨k, hk, hmem k hks, hne, fun p hp => hfree p (hparent k p hp)⟩

/-- The time and the type a blank entry was made with do not matter to what is accepted. -/
private theorem accepts_blank {y : InstanceId} (hy : s.lookup y.instanceId = none) {t t' : Option Int32}
    {now now' : TimestampMs}
    (h : Accepts (s.insert y.instanceId (blankDescription y t now)) x request) :
    Accepts (s.insert y.instanceId (blankDescription y t' now')) x request := by
  refine h.of_same (fun k hk => ?_) (fun k hk => ?_) (fun c p hp => ?_)
  · by_cases hky : k = y.instanceId
    · subst hky
      exact ⟨_, Finmap.lookup_insert _, rfl⟩
    · obtain ⟨d, hd, hn⟩ := hk
      rw [lookup_blank_ne hky] at hd
      exact ⟨d, (lookup_blank_ne hky).trans hd, hn⟩
  · rw [Finmap.mem_insert] at hk ⊢
    exact hk
  · rw [hasParent_blank _ _ hy] at hp ⊢
    exact hp

theorem Accepted.answers (h : Accepted s x request) (hs : Consistent s) {r : Except Status Bool}
    {later : Clock} (hrun : (applyToInstanceDescription request).exec s clock = (r, s', later)) :
    r = .ok true := by
  obtain ⟨u, last, hrun', _⟩ := apply_accepted hs h clock
  rw [hrun'] at hrun
  cases hrun
  rfl

/-- What became of a request: it was carried out, or refused without a trace. -/
inductive Rpc.Outcome (rpc : Rpc) (s : InnerService) (answer : Answer) (s' : InnerService) : Prop where
  | carried {base : InnerService} {x : InstanceId} {request : InstanceDescription} {clock : Clock}
      (carries : rpc.Carries s base x request) (applied : Applied clock x request base s')
      (answered : answer = .bool (.ok true))
  | refused (refuses : ∀ base x request, ¬ rpc.Carries s base x request)
      (answered : answer ≠ .bool (.ok true)) (same : s' = s)

/-- An update by itself. -/
private theorem apply_outcome (hs : Consistent s) {rpc : Rpc} (hu : rpc.update = some request)
    (hne : ∀ request, rpc ≠ .tryAddInstance request) {r : Except Status Bool}
    (h : serves (.apply request) s r s') : rpc.Outcome s (.bool r) s' := by
  obtain ⟨clock, later, hrun⟩ := serves_apply_iff.mp h
  rcases apply_cases hs request clock hrun with ⟨hr, hsame⟩ | ⟨rfl, x, hx, ha⟩
  · refine .refused (fun base x update hc => ?_) (fun he => hr (Answer.bool.inj he)) hsame
    obtain ⟨hupdate, hbase, hx⟩ := hc
    rw [hu] at hupdate
    cases hupdate
    cases hbase with
    | registering => exact hne _ rfl
    | found => exact hr (hx.answers hs hrun)
  · exact .carried ⟨hu, .found hne, hx⟩ ha rfl

/-- An update that its handler only lets through in the right shape. -/
private theorem shaped_outcome (hs : Consistent s) {rpc : Rpc} {shape : Bool}
    (hu : rpc.update = if shape then some request else none)
    (hne : ∀ request, rpc ≠ .tryAddInstance request) {r : Except Status Bool}
    (h : Runs serves s (if shape then locked (.apply request) else return .error invalidRequest) r s') :
    rpc.Outcome s (.bool r) s' := by
  split at h
  · next hshape => exact apply_outcome hs (hu.trans (if_pos hshape)) hne (runs_perform_iff.mp h)
  · next hshape =>
    rw [pure_eq, runs_done_iff] at h
    obtain ⟨rfl, rfl⟩ := h
    exact .refused (fun _ _ _ hc => by cases (hu.trans (if_neg hshape)).symm.trans hc.update) (by simp) rfl

/-- What a registration does once `apply_to_instance_description` has answered. -/
def settle (x : InstanceId) (r : Except Status Bool) : Handler Answer :=
  match r with
  | .ok true => .done (.bool r)
  | _ => .call (.remove x.instanceId) (fun _ => .done (.bool r))

theorem settle_refused {x : InstanceId} {r : Except Status Bool} (hr : r ≠ .ok true) :
    settle x r = .call (.remove x.instanceId) (fun _ => .done (.bool r)) := by
  rcases r with _ | _ | _
  · rfl
  · rfl
  · exact absurd rfl hr

/-- The three sections of a registration that passes the checks made before the lock. -/
def registration (request : InstanceDescription) (x : InstanceId) (t : InstanceType) : Handler Answer :=
  .call (.insertBlank x (some t.toI32)) fun inserted =>
    if inserted then .call (.apply { request with instanceType := none }) (settle x)
    else .done (.bool (.ok false))

/-- A well-shaped registration of a known type goes through its sections. -/
private theorem tryAdd_registration {t : InstanceType} (hshape : addShape request)
    (hid : request.instanceId = some x) (htype : request.instanceType = some t.toI32) :
    (Rpc.tryAddInstance request).handler = registration request x t := by
  have hcreated : request.createdTimestampMs = none := by
    simp only [addShape, Bool.and_eq_true, Option.isNone_iff_eq_none] at hshape
    exact hshape.1.1.1.1.1.1.1.2
  simp only [Rpc.handler, tryAddInstance, if_pos hshape, insertNewInstanceDescription, hid, htype,
    hcreated, InstanceType.tryFrom_toI32, Option.isNone_some, Bool.false_eq_true, if_false]
  refine congrArg (Program.call _) (funext fun inserted => ?_)
  cases inserted with
  | false => rfl
  | true =>
    refine congrArg (Program.call _) (funext fun r => ?_)
    rcases r with _ | _ | _ <;> rfl

/-- Any other is answered with an error before the lock. -/
private theorem tryAdd_refused (h : ∀ (x : InstanceId) (t : InstanceType), request.instanceId = some x →
    request.instanceType = some t.toI32 → ¬ addShape request) :
    ∃ a, a ≠ .bool (.ok true) ∧ (Rpc.tryAddInstance request).handler = .done a := by
  have herror {e : Status} : Answer.bool (.error e) ≠ .bool (.ok true) := by simp
  simp only [Rpc.handler, tryAddInstance]
  split
  · next hshape =>
    unfold insertNewInstanceDescription
    split
    · next x v hid hv _ =>
      cases htype : InstanceType.tryFrom v with
      | none => exact ⟨_, herror, rfl⟩
      | some t =>
        obtain rfl := InstanceType.tryFrom_eq_some htype
        exact absurd hshape (h x t hid hv)
    · exact ⟨_, herror, rfl⟩
  · exact ⟨_, herror, rfl⟩

theorem tryAdd_handler (request : InstanceDescription) :
    (∃ a, a ≠ .bool (.ok true) ∧ (Rpc.tryAddInstance request).handler = .done a) ∨
      ∃ x t, request.instanceId = some x ∧ request.instanceType = some t.toI32 ∧
        (Rpc.tryAddInstance request).handler = registration request x t := by
  by_cases hcase : ∃ (x : InstanceId) (t : InstanceType), request.instanceId = some x ∧
      request.instanceType = some t.toI32 ∧ addShape request
  · obtain ⟨x, t, hid, htype, hshape⟩ := hcase
    exact Or.inr ⟨x, t, hid, htype, tryAdd_registration hshape hid htype⟩
  · exact Or.inl (tryAdd_refused fun x t hid htype hshape => hcase ⟨x, t, hid, htype, hshape⟩)

/-- A registration adds its entry with all it asks for, or leaves the store alone and is refused
whenever the entry is made. -/
private theorem registration_runs (hs : Consistent s) {t : InstanceType} {answer : Answer}
    (hid : request.instanceId = some x) (h : Runs serves s (registration request x t) answer s') :
    (answer = .bool (.ok true) ∧ s.lookup x.instanceId = none ∧ ∃ now clock,
      Accepted (s.insert x.instanceId (blankDescription x (some t.toI32) now)) x
        { request with instanceType := none } ∧
      Applied clock x { request with instanceType := none }
        (s.insert x.instanceId (blankDescription x (some t.toI32) now)) s') ∨
    answer ≠ .bool (.ok true) ∧ s' = s ∧ ∀ now, s.lookup x.instanceId = none →
      ¬ Accepted (s.insert x.instanceId (blankDescription x (some t.toI32) now)) x
        { request with instanceType := none } := by
  simp only [registration, runs_call_iff] at h
  obtain ⟨inserted, u, hinsert, h⟩ := h
  rcases serves_insertBlank_iff.mp hinsert with ⟨rfl, hx, rfl⟩ | ⟨rfl, hx, made, rfl⟩
  · simp only [Bool.false_eq_true, if_false, runs_done_iff] at h
    obtain ⟨rfl, rfl⟩ := h
    exact Or.inr ⟨by simp, rfl, fun _ hnone => by simp [hnone] at hx⟩
  · simp only [if_true, runs_call_iff] at h
    obtain ⟨r, v, happly, h⟩ := h
    obtain ⟨clock, later, happly⟩ := serves_apply_iff.mp happly
    have hblank := blank_consistent hs hx t made
    rcases apply_cases hblank _ clock happly with ⟨hr, rfl⟩ | ⟨rfl, y, hy, ha⟩
    · -- the application was refused, so the entry goes again
      rw [settle_refused hr] at h
      simp only [runs_call_iff, runs_done_iff] at h
      obtain ⟨_, w, hremove, rfl, rfl⟩ := h
      refine Or.inr ⟨fun he => hr (Answer.bool.inj he), ?_, fun now _ hacc => hr ?_⟩
      · rw [serves_remove_iff.mp hremove, FiniteMap.erase_insert_self hx]
      · have hsame : Accepted (s.insert x.instanceId (blankDescription x (some t.toI32) made)) x
            { request with instanceType := none } :=
          ⟨accepts_blank hx hacc.toAccepts, hacc.instanceId, hacc.createdTimestampMs, rfl⟩
        exact hsame.answers hblank happly
    · obtain ⟨rfl, rfl⟩ := runs_done_iff.mp h
      obtain rfl : x = y := Option.some.inj (hid.symm.trans hy.instanceId)
      exact Or.inl ⟨rfl, hx, made, clock, hy, ha⟩

/-- A registration that is not carried out was refused. -/
theorem tryAdd_outcome (hs : Consistent s) {answer : Answer}
    (h : Runs serves s (Rpc.tryAddInstance request).handler answer s') :
    (Rpc.tryAddInstance request).Outcome s answer s' := by
  by_cases hcase : ∃ (x : InstanceId) (t : InstanceType), request.instanceId = some x ∧
      request.instanceType = some t.toI32 ∧ addShape request
  · obtain ⟨x, t, hid, htype, hshape⟩ := hcase
    have hupdate : (Rpc.tryAddInstance request).update = some { request with instanceType := none } :=
      if_pos hshape
    rw [tryAdd_registration hshape hid htype] at h
    rcases registration_runs hs hid h with ⟨ha, hx, now, clock, hacc, happlied⟩ | ⟨ha, hsame, hno⟩
    · exact .carried ⟨hupdate, .registering t now hid htype hx, hacc⟩ happlied ha
    · refine .refused (fun base y update hc => ?_) ha hsame
      obtain ⟨hu, hbase, hy⟩ := hc
      cases hupdate.symm.trans hu
      cases hbase with
      | @registering _ z t' now hid' htype' fresh =>
        obtain rfl : x = z := Option.some.inj (hid.symm.trans hid')
        obtain rfl : x = y := Option.some.inj (hid.symm.trans hy.instanceId)
        rw [← Option.some.inj (htype.symm.trans htype')] at hy
        exact hno now fresh hy
      | found hne => exact hne _ rfl
  · obtain ⟨a, ha, hdone⟩ := tryAdd_refused fun x t hid htype hshape => hcase ⟨x, t, hid, htype, hshape⟩
    rw [hdone, runs_done_iff] at h
    obtain ⟨rfl, rfl⟩ := h
    refine .refused (fun base y update hc => ?_) ha rfl
    obtain ⟨hu, hbase, _⟩ := hc
    have hshape := (Option.ite_none_right_eq_some.mp hu).1
    cases hbase with
    | registering t now hid htype _ => exact hcase ⟨_, t, hid, htype, hshape⟩
    | found hne => exact hne _ rfl

/-- Every whole request is carried out or refused. -/
theorem rpc_outcome (hs : Consistent s) {rpc : Rpc} {answer : Answer}
    (h : Runs serves s rpc.handler answer s') : rpc.Outcome s answer s' := by
  have hnone {rpc : Rpc} {answer : Answer} (hu : rpc.update = none)
      (ha : answer ≠ .bool (.ok true)) : rpc.Outcome s answer s :=
    .refused (fun _ _ _ hc => by cases hu.symm.trans hc.update) ha rfl
  cases rpc with
  | tryAddInstance request => exact tryAdd_outcome hs h
  | tryUpdateInstanceDescription request | postInstanceDescription request =>
    obtain ⟨r, rfl, hrun⟩ := runs_map_iff.mp h
    exact shaped_outcome hs rfl (by simp) hrun
  | getInstance instanceId =>
    obtain ⟨r, rfl, hrun⟩ := runs_map_iff.mp h
    obtain ⟨_, _, _, hserve⟩ := runs_perform_iff.mp hrun
    cases hserve
    exact hnone rfl (by simp)
  | getAllInstances query =>
    obtain ⟨r, rfl, hrun⟩ := runs_map_iff.mp h
    obtain ⟨_, _, _, hserve⟩ := runs_perform_iff.mp hrun
    cases hserve
    exact hnone rfl (by simp)
  | killUnhealth instanceId reason current =>
    obtain ⟨r, rfl, hrun⟩ := runs_map_iff.mp h
    exact apply_outcome hs rfl (by simp) (runs_perform_iff.mp hrun)

/-- What a whole request may do to a consistent store. -/
theorem rpc_cases (hs : Consistent s) {rpc : Rpc} {answer : Answer}
    (h : Runs serves s rpc.handler answer s') :
    answer ≠ .bool (.ok true) ∧ s' = s ∨ answer = .bool (.ok true) ∧ Mutates s s' := by
  cases rpc_outcome hs h with
  | carried carries applied answered => exact Or.inr ⟨answered, carries.mutates applied⟩
  | refused _ answered same => exact Or.inl ⟨answered, same⟩

/-- The three writing requests: a refused one is the identity, an accepted one a mutation. -/
theorem writing_cases (hs : Consistent s) {r : Except Status Bool}
    (h : Runs serves s (tryAddInstance request) r s' ∨
      Runs serves s (tryUpdateInstanceDescription request) r s' ∨
      Runs serves s (postInstanceDescription request) r s') :
    (r ≠ .ok true ∧ s' = s) ∨ r = .ok true ∧ Mutates s s' := by
  have hrpc (rpc : Rpc) (h : Runs serves s rpc.handler (.bool r) s') :
      (r ≠ .ok true ∧ s' = s) ∨ r = .ok true ∧ Mutates s s' := by
    simpa using rpc_cases hs h
  rcases h with h | h | h
  · exact hrpc (.tryAddInstance request) (runs_map_iff.mpr ⟨r, rfl, h⟩)
  · exact hrpc (.tryUpdateInstanceDescription request) (runs_map_iff.mpr ⟨r, rfl, h⟩)
  · exact hrpc (.postInstanceDescription request) (runs_map_iff.mpr ⟨r, rfl, h⟩)

/-- Requests that each run to completion before the next one starts. -/
def whole : Server (fun _ : Rpc => Answer) InnerService := fun rpc s answer s' =>
  Runs serves s rpc.handler answer s'

theorem whole_execute (clock : Clock) (rpc : Rpc) (s : InnerService) :
    whole rpc s (rpc.execute clock s).1 (rpc.execute clock s).2 :=
  runs_eval (serves_execute clock) rpc.handler s

theorem whole_consistent {rpc : Rpc} {answer : Answer} (hs : Consistent s)
    (h : whole rpc s answer s') : Consistent s' := by
  rcases rpc_cases hs h with ⟨_, rfl⟩ | ⟨_, hm⟩
  · exact hs
  · exact hm.consistent hs

/-- Every store whole requests lead to is consistent. -/
theorem Reachable.consistent (h : Reachable s) : Consistent s := by
  induction h with
  | empty => exact empty_consistent
  | rpc h request answer run ih => exact whole_consistent ih run

/-- The requests of a list, each at the same time, and the store they leave. -/
def session (now : TimestampMs) (rpcs : List Rpc) :
    List (Served (fun _ : Rpc => Answer) InnerService) × InnerService :=
  record (Rpc.execute (Stream'.const now)) ∅ [] rpcs

theorem trace_session (now : TimestampMs) (rpcs : List Rpc) :
    Trace whole ∅ (session now rpcs).1 (session now rpcs).2 :=
  trace_record (whole_execute (Stream'.const now)) rpcs .nil

end WayPoint.Manager
