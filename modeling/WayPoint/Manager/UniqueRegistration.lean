import WayPoint.Manager.Sections
import WayPoint.Manager.Work

/-! Registrations of one id that interleave with each other and with all other work. The insertion
succeeds for one thread at a time, and until its registration is refused nobody else removes what it
inserted. -/
namespace WayPoint.Manager
open Foundations Program System

variable {ι : Type} {works : ι → Work} {s s' : InnerService}
  {past : List (ι × Served Section.Reply InnerService)} {cfg cfg' : WorkConfig ι} {i j : ι} {x : String}

/-- Whoever holds the entry under `x` after a call, and the entry it inserted. -/
def holderAfter (x : String) (i : ι) (e : Served Section.Reply InnerService)
    (before : Option (ι × InstanceDescription)) : Option (ι × InstanceDescription) :=
  match e with
  | ⟨.insertBlank instanceId _, _, inserted, after⟩ =>
    if inserted = true ∧ instanceId.instanceId = x then (after.lookup x).map (fun d => (i, d))
    else before
  | ⟨.remove key, _, _, _⟩ => if key = x then none else before
  | _ => before

/-- The thread that inserted the entry under `x` in the run so far, with that entry, as long as
nobody has removed it. -/
def holder (x : String) : List (ι × Served Section.Reply InnerService) →
    Option (ι × InstanceDescription)
  | [] => none
  | e :: past => holderAfter x e.1 e.2 (holder x past)

/-- What a registration fixes for ever. -/
def SameRegistration (d d' : InstanceDescription) : Prop :=
  d'.instanceType = d.instanceType ∧ d'.createdTimestampMs = d.createdTimestampMs

theorem SameRegistration.refl (d : InstanceDescription) : SameRegistration d d := ⟨rfl, rfl⟩

theorem SameRegistration.trans {a b c : InstanceDescription} (h : SameRegistration a b)
    (h' : SameRegistration b c) : SameRegistration a c :=
  ⟨h'.1.trans h.1, h'.2.trans h.2⟩

/-- The sections that neither insert nor remove an entry. -/
def Section.KeepsEntries : Section → Prop
  | .insertBlank _ _ | .remove _ => False
  | _ => True

theorem Section.KeepsEntries.holderAfter {c : Section} (hc : c.KeepsEntries) (r : c.Reply)
    (before : Option (ι × InstanceDescription)) :
    Manager.holderAfter x i ⟨c, s, r, s'⟩ before = before := by
  cases c with
  | insertBlank | remove => exact absurd hc id
  | now | apply | get | getAll | getUnhealth => rfl

/-- Nothing but a registration sets the type and the creation time of an entry. -/
theorem Section.KeepsEntries.changes {c : Section} (hc : c.KeepsEntries) (hs : Named s) {r : c.Reply}
    (h : serves c s r s') : FiniteMap.Changes (fun _ => SameRegistration) s s' := by
  have hsame : FiniteMap.Changes (fun _ : String => SameRegistration) s s :=
    .refl (fun _ d => SameRegistration.refl d) s
  cases c with
  | insertBlank | remove => exact absurd hc id
  | apply request =>
    obtain ⟨clock, later, hrun⟩ := serves_apply_iff.mp h
    rcases apply_effect hs hrun with ⟨_, rfl⟩ | ⟨_, y, _, he⟩
    · exact hsame
    · exact he.mono fun _ _ _ hd => ⟨hd.instanceType, hd.createdTimestampMs⟩
  | now | get | getAll | getUnhealth =>
    obtain ⟨_, _, _, hrun⟩ := h
    obtain ⟨_, rfl⟩ := Prod.mk.inj hrun
    exact hsame

theorem Section.Plain.keepsEntries {c : Section} (h : c.Plain) : c.KeepsEntries := by
  cases c with
  | apply | get | getAll => exact True.intro
  | now | insertBlank | remove | getUnhealth => exact absurd h id

private theorem killAll_keeps (orders : List InstanceDescription) : (killAll orders).Within Section.KeepsEntries := by
  induction orders with
  | nil => exact True.intro
  | cons order rest ih => exact ⟨True.intro, fun _ => ih⟩

/-- How far the thread of one piece of work has come, and what it then holds. -/
inductive Stage (works : ι → Work) (past : List (ι × Served Section.Reply InnerService)) (i : ι) :
    Option (Handler (Option Answer)) → Prop where
  | idle : Stage works past i none
  | other {p : Handler (Option Answer)} (keeps : p.Within Section.KeepsEntries)
      (adds : ∀ request, works i ≠ .rpc (.tryAddInstance request)) : Stage works past i (some p)
  | ready {request : InstanceDescription} {x : InstanceId} {t : InstanceType}
      (adds : works i = .rpc (.tryAddInstance request)) (named : request.instanceId = some x)
      (typed : request.instanceType = some t.toI32) :
      Stage works past i (some (.call (.insertBlank x (some t.toI32)) fun inserted => some <$>
        if inserted then Program.call (.apply { request with instanceType := none }) (settle x)
        else Program.done (.bool (.ok false))))
  | inserted {request : InstanceDescription} {x : InstanceId} {now : TimestampMs}
      (adds : works i = .rpc (.tryAddInstance request)) (named : request.instanceId = some x)
      (held : holder x.instanceId past = some (i, blankDescription x request.instanceType now)) :
      Stage works past i
        (some (.call (.apply { request with instanceType := none }) fun r => some <$> settle x r))
  | undoing {x : InstanceId} {d : InstanceDescription} {r : Except Status Bool} (refused : r ≠ .ok true)
      (held : holder x.instanceId past = some (i, d)) :
      Stage works past i (some (.call (.remove x.instanceId) fun _ => .done (some (.bool r))))
  | failed {a : Option Answer} (h : a ≠ some (.bool (.ok true))) : Stage works past i (some (.done a))
  | registered {request : InstanceDescription} {x : InstanceId} {now : TimestampMs}
      (adds : works i = .rpc (.tryAddInstance request)) (named : request.instanceId = some x)
      (held : holder x.instanceId past = some (i, blankDescription x request.instanceType now)) :
      Stage works past i (some (.done (some (.bool (.ok true)))))

/-- A stage only depends on what the thread holds. -/
theorem Stage.keep {past' : List (ι × Served Section.Reply InnerService)}
    {thread : Option (Handler (Option Answer))} (h : Stage works past i thread)
    (hheld : ∀ x d, holder x past = some (i, d) → holder x past' = some (i, d)) :
    Stage works past' i thread := by
  cases h with
  | idle => exact .idle
  | other keeps adds => exact .other keeps adds
  | ready adds named typed => exact .ready adds named typed
  | inserted adds named held => exact .inserted adds named (hheld _ _ held)
  | undoing refused held => exact .undoing refused (hheld _ _ held)
  | failed ha => exact .failed ha
  | registered adds named held => exact .registered adds named (hheld _ _ held)

private theorem stage_handler (works : ι → Work) (past : List (ι × Served Section.Reply InnerService)) (i : ι) :
    Stage works past i (some (works i).handler) := by
  cases hw : works i with
  | killPass =>
    refine .other ?_ (fun request he => by cases hw.symm.trans he)
    exact ⟨True.intro, fun t => ⟨True.intro, fun orders =>
      (killAll_keeps orders).bind fun _ => True.intro⟩⟩
  | rpc rpc =>
    by_cases hadd : ∃ request, rpc = .tryAddInstance request
    · obtain ⟨request, rfl⟩ := hadd
      rcases tryAdd_handler request with ⟨a, ha, hp⟩ | ⟨x, t, hx, ht, hp⟩
      · rw [Work.handler, hp]
        exact .failed fun he => ha (Option.some.inj he)
      · rw [Work.handler, hp]
        exact .ready hw hx ht
    · refine .other ?_ (fun request he => hadd ⟨request, Work.rpc.inj (hw.symm.trans he)⟩)
      rcases handler_cases rpc with ⟨a, hp⟩ | ⟨c, f, hc, hp, _⟩ | ⟨request, _, _, hrpc, _⟩
      · rw [Work.handler, hp]
        exact True.intro
      · rw [Work.handler, hp]
        exact ⟨hc.keepsEntries, fun _ => True.intro⟩
      · exact absurd ⟨request, hrpc⟩ hadd

/-- What holds at every moment of every run: entries under a held id are those their holders
inserted, and each thread that may still remove an entry holds it. -/
structure Holds (works : ι → Work) (past : List (ι × Served Section.Reply InnerService))
    (cfg : WorkConfig ι) : Prop where
  named : Named cfg.state
  entry : ∀ x i d, holder x past = some (i, d) →
    ∃ d', cfg.state.lookup x = some d' ∧ SameRegistration d d'
  stage : ∀ i, Stage works past i (cfg.thread i)

private theorem holds_initial (works : ι → Work) (hs : Named s) : Holds works [] (.initial s) where
  named := hs
  entry x i d h := by cases h
  stage i := .idle

theorem Holds.registered (h : Holds works past cfg) {request : InstanceDescription} {x : InstanceId}
    (adds : works i = .rpc (.tryAddInstance request)) (named : request.instanceId = some x)
    (hdone : cfg.finished i (some (.bool (.ok true)))) :
    ∃ now, holder x.instanceId past = some (i, blankDescription x request.instanceType now) := by
  have hstage := h.stage i
  rw [show cfg.thread i = _ from hdone] at hstage
  cases hstage with
  | other _ hno => exact absurd adds (hno request)
  | failed hne => exact absurd rfl hne
  | @registered request' x' now adds' named' held =>
    rw [adds] at adds'
    cases adds'
    rw [named] at named'
    cases named'
    exact ⟨now, held⟩

variable [DecidableEq ι]

/-- What one call leads to: no other thread loses what it holds, and a removal removes what its own
thread inserted. -/
structure Holds.Advanced (works : ι → Work) (past : List (ι × Served Section.Reply InnerService))
    (i : ι) (e : Served Section.Reply InnerService) (cfg : WorkConfig ι) : Prop where
  holds : Holds works ((i, e) :: past) cfg
  kept : ∀ x j d, j ≠ i → holder x past = some (j, d) → holder x ((i, e) :: past) = some (j, d)
  own : ∀ key, e.call = .remove key → ∃ d, holder key past = some (i, d)

theorem Holds.run (h : Holds works past cfg) {e : Served Section.Reply InnerService}
    {p : Handler (Option Answer)} (hnamed : Named s')
    (hkept : ∀ x j d, j ≠ i → holder x past = some (j, d) → holder x ((i, e) :: past) = some (j, d))
    (hentry : ∀ x j d, holder x ((i, e) :: past) = some (j, d) →
      ∃ d', s'.lookup x = some d' ∧ SameRegistration d d')
    (hstage : Stage works ((i, e) :: past) i (some p)) :
    Holds works ((i, e) :: past) (Config.run { cfg with state := s' } i p) := by
  refine ⟨hnamed, hentry, fun j => ?_⟩
  by_cases hji : j = i
  · subst hji
    rw [Config.run_thread_self]
    exact hstage
  · rw [Config.run_thread_of_ne hji]
    exact (h.stage j).keep fun x d hheld => hkept x j d hji hheld

/-- A section that keeps all entries changes nobody's holdings. -/
theorem Holds.keeps_call (h : Holds works past cfg) {c : Section} (hc : c.KeepsEntries) {r : c.Reply}
    {p : Handler (Option Answer)} (served : serves c cfg.state r s')
    (hstage : Stage works ((i, ⟨c, cfg.state, r, s'⟩) :: past) i (some p)) :
    Holds.Advanced works past i ⟨c, cfg.state, r, s'⟩ (Config.run { cfg with state := s' } i p) := by
  have hsame (x : String) : holder x ((i, ⟨c, cfg.state, r, s'⟩) :: past) = holder x past :=
    hc.holderAfter r _
  refine ⟨h.run (serves_named h.named served) (fun x j d _ hheld => (hsame x).trans hheld) ?_ hstage,
    fun x j d _ hheld => (hsame x).trans hheld, fun key hkey => ?_⟩
  · intro x j d hheld
    obtain ⟨d₁, hd₁, hreg⟩ := h.entry x j d ((hsame x).symm.trans hheld)
    obtain ⟨d₂, hd₂, hreg'⟩ := (hc.changes h.named served).present hd₁
    exact ⟨d₂, hd₂, hreg.trans hreg'⟩
  · obtain rfl : c = .remove key := hkey
    exact absurd hc id

/-- A section that is about one id, which no other thread holds. -/
theorem Holds.key_call (h : Holds works past cfg) {key : String}
    {e : Served Section.Reply InnerService} {p : Handler (Option Answer)} (hnamed : Named s')
    (hother : ∀ y, y ≠ key → holder y ((i, e) :: past) = holder y past ∧
      s'.lookup y = cfg.state.lookup y)
    (halone : ∀ j d, holder key past = some (j, d) → j = i)
    (hself : ∀ j d, holder key ((i, e) :: past) = some (j, d) →
      ∃ d', s'.lookup key = some d' ∧ SameRegistration d d')
    (hown : ∀ k, e.call = .remove k → ∃ d, holder k past = some (i, d))
    (hstage : Stage works ((i, e) :: past) i (some p)) :
    Holds.Advanced works past i e (Config.run { cfg with state := s' } i p) := by
  have hkept : ∀ y j d, j ≠ i → holder y past = some (j, d) →
      holder y ((i, e) :: past) = some (j, d) := by
    intro y j d hj hheld
    by_cases hy : y = key
    · subst hy
      exact absurd (halone j d hheld) hj
    · exact (hother y hy).1.trans hheld
  refine ⟨h.run hnamed hkept (fun y j d hheld => ?_) hstage, hkept, hown⟩
  by_cases hy : y = key
  · subst hy
    exact hself j d hheld
  · obtain ⟨d', hd', hreg⟩ := h.entry y j d ((hother y hy).1.symm.trans hheld)
    exact ⟨d', (hother y hy).2.trans hd', hreg⟩

/-- An insertion only succeeds where nobody holds an entry. -/
theorem Holds.insert_call (h : Holds works past cfg) {request : InstanceDescription} {x : InstanceId}
    {t : InstanceType} (adds : works i = .rpc (.tryAddInstance request))
    (hnamed : request.instanceId = some x) (typed : request.instanceType = some t.toI32) {r : Bool}
    (served : serves (.insertBlank x (some t.toI32)) cfg.state r s') :
    Holds.Advanced works past i ⟨.insertBlank x (some t.toI32), cfg.state, r, s'⟩
      (Config.run { cfg with state := s' } i (some <$>
        if r then Program.call (.apply { request with instanceType := none }) (settle x)
        else Program.done (.bool (.ok false)))) := by
  have hafter := serves_named h.named served
  rcases serves_insertBlank_iff.mp served with ⟨rfl, _, rfl⟩ | ⟨rfl, hnone, now, rfl⟩
  · have hsame (y : String) : holder y ((i, ⟨.insertBlank x (some t.toI32), cfg.state, false,
        cfg.state⟩) :: past) = holder y past := by simp [holder, holderAfter]
    exact ⟨h.run hafter (fun y j d _ hheld => (hsame y).trans hheld)
      (fun y j d hheld => h.entry y j d ((hsame y).symm.trans hheld)) (.failed (by simp)),
      fun y j d _ hheld => (hsame y).trans hheld, fun key hkey => by cases hkey⟩
  · have hself : holder x.instanceId ((i, ⟨.insertBlank x (some t.toI32), cfg.state, true,
        cfg.state.insert x.instanceId (blankDescription x (some t.toI32) now)⟩) :: past) =
        some (i, blankDescription x request.instanceType now) := by
      simp [holder, holderAfter, typed]
    refine h.key_call hafter (fun y hy => ⟨?_, lookup_blank_ne hy⟩)
      (fun j d hheld => ?_) (fun j d hheld => ?_) (fun k hk => by cases hk)
      (.inserted adds hnamed hself)
    · simp [holder, holderAfter, hy.symm]
    · obtain ⟨d', hd', _⟩ := h.entry _ j d hheld
      rw [hnone] at hd'
      cases hd'
    · obtain ⟨rfl, rfl⟩ := Prod.mk.inj (Option.some.inj (hself.symm.trans hheld))
      exact ⟨_, Finmap.lookup_insert _, by rw [typed]; exact .refl _⟩

/-- A rollback takes back what its own thread inserted. -/
theorem Holds.remove_call (h : Holds works past cfg) {x : InstanceId} {d : InstanceDescription}
    {a : Option Answer} (ha : a ≠ some (.bool (.ok true)))
    (held : holder x.instanceId past = some (i, d)) {r : Unit}
    (served : serves (.remove x.instanceId) cfg.state r s') :
    Holds.Advanced works past i ⟨.remove x.instanceId, cfg.state, r, s'⟩
      (Config.run { cfg with state := s' } i (.done a)) := by
  have hafter := serves_named h.named served
  obtain rfl := serves_remove_iff.mp served
  refine h.key_call hafter
    (fun y hy => ⟨?_, Finmap.lookup_erase_ne hy⟩) (fun j d' hheld => ?_) (fun j d' hheld => ?_)
    (fun k hk => ?_) (.failed ha)
  · simp [holder, holderAfter, hy.symm]
  · rw [held] at hheld
    cases hheld
    rfl
  · simp [holder, holderAfter] at hheld
  · cases hk
    exact ⟨d, held⟩

theorem Holds.call (h : Holds works past cfg) {c : Section} {next : c.Reply → Handler (Option Answer)}
    {r : c.Reply} (hi : cfg.thread i = some (.call c next)) (served : serves c cfg.state r s') :
    Holds.Advanced works past i ⟨c, cfg.state, r, s'⟩
      (Config.run { cfg with state := s' } i (next r)) := by
  have hstage := h.stage i
  rw [hi] at hstage
  cases hstage with
  | other keeps adds => exact h.keeps_call keeps.1 served (.other (keeps.2 r) adds)
  | ready adds named typed => exact h.insert_call adds named typed served
  | @inserted request x now adds named held =>
    have hc : (Section.apply { request with instanceType := none }).KeepsEntries := True.intro
    refine h.keeps_call hc served ?_
    rcases r with e | _ | _
    · exact .undoing (r := .error e) (by simp) ((hc.holderAfter _ _).trans held)
    · exact .undoing (r := .ok false) (by simp) ((hc.holderAfter _ _).trans held)
    · exact .registered adds named ((hc.holderAfter _ _).trans held)
  | @undoing x d r refused held => exact h.remove_call (by simpa using refused) held served

theorem Holds.start (h : Holds works past cfg) (hi : cfg.thread i = none) :
    Holds works past (cfg.run i (works i).handler) := by
  refine ⟨h.named, h.entry, fun j => ?_⟩
  by_cases hji : j = i
  · subst hji
    rw [Config.run_thread_self]
    exact stage_handler works past j
  · rw [Config.run_thread_of_ne hji]
    exact h.stage j

/-- The holder of an entry that has answered keeps it. -/
theorem Holds.durable (h : Holds works past cfg) {a : Option Answer} {d : InstanceDescription}
    (hdone : cfg.finished i a) (hheld : holder x past = some (i, d))
    {later : List (ι × Served Section.Reply InnerService)}
    (hrun : (workers works).Traced cfg later cfg') :
    ∃ d', cfg'.state.lookup x = some d' ∧ SameRegistration d d' := by
  have hall : Holds works (later ++ past) cfg' ∧ cfg'.finished i a ∧
      holder x (later ++ past) = some (i, d) := by
    induction hrun with
    | nil => exact ⟨h, hdone, hheld⟩
    | start j _ hj ih =>
      obtain ⟨hholds, hfinished, hheld⟩ := ih
      have hij : i ≠ j := by
        rintro rfl
        cases hj.symm.trans hfinished
      exact ⟨hholds.start hj, (Config.run_thread_of_ne hij _ _).trans hfinished, hheld⟩
    | call j _ hj served ih =>
      obtain ⟨hholds, hfinished, hheld⟩ := ih
      have hij : i ≠ j := by
        rintro rfl
        cases hj.symm.trans hfinished
      have hnext := hholds.call hj served
      exact ⟨hnext.holds, (Config.run_thread_of_ne hij _ _).trans hfinished, hnext.kept _ _ _ hij hheld⟩
    | environment _ henv => exact absurd henv id
  exact hall.1.entry x i d hall.2.2

/-- Whatever else runs in between: at most one registration of an id succeeds, from then on the
entry keeps the type and the creation time it was inserted with, and a rollback only ever removes
what its own thread inserted. -/
theorem registration_unique_durable (works : ι → Work) (hs : Named s)
    (h : (workers works).Traced (.initial s) past cfg) :
    (∀ i j request request' x, works i = .rpc (.tryAddInstance request) →
      works j = .rpc (.tryAddInstance request') → request.instanceId = some x →
      request'.instanceId = some x → cfg.finished i (some (.bool (.ok true))) →
      cfg.finished j (some (.bool (.ok true))) → i = j) ∧
    (∀ i request x, works i = .rpc (.tryAddInstance request) → request.instanceId = some x →
      cfg.finished i (some (.bool (.ok true))) → ∃ now,
        holder x.instanceId past = some (i, blankDescription x request.instanceType now) ∧
        ∀ later cfg', (workers works).Traced cfg later cfg' → ∃ d,
          cfg'.state.lookup x.instanceId = some d ∧ d.instanceType = request.instanceType ∧
          d.createdTimestampMs = some now) ∧
    ∀ i key e earlier, (i, e) :: earlier <:+ past → e.call = .remove key →
      ∃ d, holder key earlier = some (i, d) := by
  obtain ⟨hend, hevents⟩ := h.events (I := Holds works)
    (P := fun earlier e => ∀ key, e.2.call = .remove key → ∃ d, holder key earlier = some (e.1, d))
    (holds_initial works hs) (fun _ _ _ hholds hi => hholds.start hi)
    (fun _ _ _ _ _ _ _ hholds hi served => ⟨(hholds.call hi served).own, (hholds.call hi served).holds⟩)
    (fun _ _ _ _ henv => absurd henv id)
  refine ⟨fun i j request request' x hi hj hx hx' hdone hdone' => ?_,
    fun i request x hi hx hdone => ?_, fun i key e earlier hsuffix hcall => hevents _ _ hsuffix key hcall⟩
  · obtain ⟨now, hheld⟩ := hend.registered hi hx hdone
    obtain ⟨now', hheld'⟩ := hend.registered hj hx' hdone'
    exact (Prod.mk.inj (Option.some.inj (hheld.symm.trans hheld'))).1
  · obtain ⟨now, hheld⟩ := hend.registered hi hx hdone
    refine ⟨now, hheld, fun later cfg' hrun => ?_⟩
    obtain ⟨d, hd, htype, hcreated⟩ := hend.durable hdone hheld hrun
    exact ⟨d, hd, htype, hcreated⟩

/-- Three registrations of one agent; the first names a parent that does not exist. -/
def contenders : Fin 3 → Work
  | 0 => .rpc (.tryAddInstance
      { instanceId := some ⟨"agent"⟩, instanceType := some InstanceType.agent.toI32,
        parent := some { instanceId := some ⟨"ghost"⟩ } })
  | 1 | 2 => .rpc (.tryAddInstance
      { instanceId := some ⟨"agent"⟩, instanceType := some InstanceType.agent.toI32 })

/-- The second is refused while the entry of the first is half made, the third registers after the
first has removed it. -/
def contest : WorkConfig (Fin 3) :=
  (workers contenders).timetable Section.execute (.initial ∅)
    ([0, 0, 1, 1, 0, 0, 2, 2, 2].map (fun i => (i, Stream'.const ⟨2000⟩)))

theorem registration_unique_durable_contest : ∃ d, contest.state.lookup "agent" = some d ∧
    d.instanceType = some InstanceType.agent.toI32 := by
  have hwon : contest.finished 2 (some (.bool (.ok true))) := by decide +kernel
  obtain ⟨past, hrun⟩ := traced_timetable serves_execute
    ([0, 0, 1, 1, 0, 0, 2, 2, 2].map (fun i => (i, Stream'.const ⟨2000⟩)))
    (.nil : (workers contenders).Traced (.initial ∅) [] (.initial ∅))
  obtain ⟨now, _, hdurable⟩ := (registration_unique_durable contenders empty_consistent.named
    hrun).2.1 2 _ ⟨"agent"⟩ rfl rfl hwon
  obtain ⟨d, hd, htype, _⟩ := hdurable _ _ .nil
  exact ⟨d, hd, htype⟩

end WayPoint.Manager
