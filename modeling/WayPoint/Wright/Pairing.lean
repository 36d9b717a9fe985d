import WayPoint.Foundations.Exceptions
import WayPoint.Wright.Client
import WayPoint.Wright.RoundTrip

/-! Whose reply a call returns. Nothing but its place pairs a reply with a command, so a call has its own
reply when its command is the oldest one on the connection as its `recv` starts. -/
namespace WayPoint.Wright.TzafonWrightClient
open Foundations

variable {ι φ : Type} {lib : Stdlib φ} {cmd : Command φ} {caller : ι}

/-- What a call still does, from each of its awaits on. -/
abbrev Remaining (ι φ : Type) := Program (@ClientAwait.Reply ι) (Except Raised (Returned φ))

/-- How a call ends that has got a message, or has been ended early. -/
def settle (lib : Stdlib φ) (cmd : Command φ) : Except Raised Message → Except Raised (Returned φ)
  | .ok message =>
    match accept lib message with
    | .ok returned => .ok returned
    | .error e => sync (report lib cmd e)
  | .error .cancelled => .error .cancelled
  | .error (.exception e) => sync (report lib cmd e)

def resuming (lib : Stdlib φ) (cmd : Command φ) (caller : ι) : Remaining ι φ :=
  .call (.resume caller) fun reply => .done (settle lib cmd reply)

def receiving (lib : Stdlib φ) (cmd : Command φ) (caller : ι) : Remaining ι φ :=
  .call (.recv caller) fun
    | .ok (some message) => .done (settle lib cmd (.ok message))
    | .ok none => resuming lib cmd caller
    | .error raised => .done (settle lib cmd (.error raised))

def draining (lib : Stdlib φ) (cmd : Command φ) (caller : ι) : Remaining ι φ :=
  .call (.drain caller) fun
    | .ok () => receiving lib cmd caller
    | .error raised => .done (settle lib cmd (.error raised))

def sending (lib : Stdlib φ) (cmd : Command φ) (caller : ι) : Remaining ι φ :=
  .call (.send caller (cmd.dump lib)) fun
    | .ok () => draining lib cmd caller
    | .error raised => .done (settle lib cmd (.error raised))

/-- A connected call sends its command if it can print it. -/
theorem sendAction_run_ok (h : announce lib cmd = .ok ()) :
    (sendAction lib true caller cmd).run = sending lib cmd caller := by
  have hended (raised : Raised) :
      (handle lib cmd raised : Coroutine ι (Returned φ)).run = .done (settle lib cmd (.error raised)) := by
    cases raised <;> rfl
  have haccepted (message : Message) :
      (tryCatch (sync (accept lib message) : Coroutine ι (Returned φ)) (handle lib cmd)).run =
        .done (settle lib cmd (.ok message)) := by
    simp only [settle]
    cases accept lib message <;> rfl
  unfold sendAction exchange
  rw [h]
  refine congrArg (Program.call _) (funext fun sent => ?_)
  rcases sent with raised | _
  · exact hended raised
  refine congrArg (Program.call _) (funext fun drained => ?_)
  rcases drained with raised | _
  · exact hended raised
  refine congrArg (Program.call _) (funext fun received => ?_)
  rcases received with raised | _ | message
  · exact hended raised
  · refine congrArg (Program.call _) (funext fun resumed => ?_)
    rcases resumed with raised | message
    · exact hended raised
    · exact haccepted message
  · exact haccepted message

private theorem sendAction_run_error {e : PyException} (h : announce lib cmd = .error e) :
    (sendAction lib true caller cmd).run = .done (sync (report lib cmd e)) := by
  unfold sendAction exchange
  rw [h]
  rfl

/-- The handlers never load a result. -/
private theorem report_ne_loaded (e : PyException) (result : Result φ) : report lib cmd e ≠ .ok (.loaded result) := by
  intro h
  unfold report at h
  split at h
  · obtain ⟨_, _, h⟩ := bind_eq_ok_iff.mp h
    obtain ⟨_, _, h⟩ := bind_eq_ok_iff.mp h
    cases h
  · obtain ⟨_, _, h⟩ := bind_eq_ok_iff.mp h
    obtain ⟨_, _, h⟩ := bind_eq_ok_iff.mp h
    cases h

private theorem accept_loaded {frame : Bytes} {result : Result φ}
    (h : accept lib (.bytes frame) = .ok (.loaded result)) : Result.load lib frame = .ok result := by
  obtain ⟨resultObj, hload, h⟩ := bind_eq_ok_iff.mp h
  obtain ⟨_, _, h⟩ := bind_eq_ok_iff.mp h
  obtain ⟨_, _, h⟩ := bind_eq_ok_iff.mp h
  cases h
  exact hload

theorem settle_accepted {message : Message} {returned : Returned φ} (h : accept lib message = .ok returned) :
    settle lib cmd (.ok message) = .ok returned := by
  simp only [settle, h]

/-- A loaded result has been read from the message that was received. -/
private theorem settle_loaded {r : Except Raised Message} {result : Result φ}
    (h : settle lib cmd r = .ok (.loaded result)) :
    ∃ message, r = .ok message ∧ accept lib message = .ok (.loaded result) := by
  have hreport (e : PyException) (h : sync (report lib cmd e) = .ok (.loaded result)) : False := by
    cases hr : report lib cmd e with
    | error e' =>
      rw [hr] at h
      cases h
    | ok returned =>
      rw [hr] at h
      cases h
      exact report_ne_loaded e result hr
  rcases r with (_ | e) | message
  · cases h
  · exact (hreport e h).elim
  · refine ⟨message, rfl, ?_⟩
    simp only [settle] at h
    split at h
    · next returned haccept =>
      cases h
      exact haccept
    · next e _ => exact (hreport e h).elim

/-- The condition on a step: a `recv` that starts while none is pending is that of the caller whose
command is the oldest one whose reply has not been received. -/
def OwnTurn (e : ι × Served (@ClientAwait.Reply ι) (Connection ι φ)) : Prop :=
  match e.2.call with
  | .recv caller => e.2.before.receiver = none → e.2.before.queue.head? = some caller
  | _ => True

private theorem ownTurn_of_ne_recv {e : ι × Served (@ClientAwait.Reply ι) (Connection ι φ)}
    (h : ∀ caller, e.2.call ≠ .recv caller) : OwnTurn e := by
  obtain ⟨caller, c, before, reply, after⟩ := e
  cases c with
  | recv other => exact absurd rfl (h other)
  | _ => trivial

/-- The result the server produced for a call is the one that was loaded. -/
def Own (lib : Stdlib φ) (s : Connection ι φ) (caller : ι) (result : Result φ) : Prop :=
  ∃ produced, s.produced caller = some produced ∧ Result.load lib (produced.dump lib) = .ok result

/-- What the connection holds of a call, by what the call still does. -/
inductive Placed (lib : Stdlib φ) (cmd : Command φ) (caller : ι) (s : Connection ι φ) :
    Remaining ι φ → Prop where
  | sending (h : caller ∉ s.queue) : Placed lib cmd caller s (sending lib cmd caller)
  | draining : Placed lib cmd caller s (draining lib cmd caller)
  | receiving : Placed lib cmd caller s (receiving lib cmd caller)
  | resuming (h : s.receiver = some caller) : Placed lib cmd caller s (resuming lib cmd caller)
  | done {out : Except Raised (Returned φ)}
      (h : ∀ result, out = .ok (.loaded result) → caller ∉ s.queue ∧ Own lib s caller result) :
      Placed lib cmd caller s (.done out)

/-- A pending `recv` will get its own reply. -/
structure InTurn (s : Connection ι φ) : Prop where
  matched : s.Matched
  receiver : ∀ caller, s.receiver = some caller → s.queue.head? = some caller

/-- What a step of somebody else leaves as it is. -/
structure Spared (s s' : Connection ι φ) (caller : ι) : Prop where
  queue : caller ∉ s.queue → caller ∉ s'.queue
  produced : caller ∉ s.queue → s'.produced caller = s.produced caller
  receiver : s.receiver = some caller → s'.receiver = some caller

theorem Spared.refl (s : Connection ι φ) (caller : ι) : Spared s s caller := ⟨id, fun _ => rfl, id⟩

variable {s s' : Connection ι φ} {p : Remaining ι φ}

theorem Placed.spared (h : Placed lib cmd caller s p) (hspared : Spared s s' caller) :
    Placed lib cmd caller s' p := by
  cases h with
  | sending h => exact .sending (hspared.queue h)
  | draining => exact .draining
  | receiving => exact .receiving
  | resuming h => exact .resuming (hspared.receiver h)
  | done h =>
    refine .done fun result hout => ?_
    obtain ⟨hqueue, hown⟩ := h result hout
    refine ⟨hspared.queue hqueue, ?_⟩
    rwa [Own, hspared.produced hqueue]

/-- A call that takes the oldest reply when it is its own has received its own. -/
theorem InTurn.take {result : Result φ} {later : Pipeline ι Bytes (Result φ)} (h : InTurn s)
    (lib : Stdlib φ) (cmd : Command φ)
    (htake : s.take = some (result, later)) (hhead : s.queue.head? = some caller) :
    InTurn { s with toPipeline := later, receiver := none } ∧
      Placed lib cmd caller { s with toPipeline := later, receiver := none }
        (.done (settle lib cmd (.ok (.bytes (result.dump lib))))) ∧
      ∀ other, s.receiver ≠ some other →
        Spared s { s with toPipeline := later, receiver := none } other := by
  obtain ⟨hmatched, hproduced, first, hqueue, hfirst⟩ := h.matched.take htake
  rw [hqueue, List.head?_cons, Option.some.injEq] at hhead
  subst hhead
  have hnodup := h.matched.nodup
  rw [hqueue, List.nodup_cons] at hnodup
  refine ⟨⟨hmatched, fun _ hnone => by cases hnone⟩, .done fun loaded hout => ?_, fun other hother => ?_⟩
  · obtain ⟨message, heq, haccept⟩ := settle_loaded hout
    cases heq
    exact ⟨hnodup.1, result, by rw [hproduced, hfirst], accept_loaded haccept⟩
  · refine ⟨fun hnot hmem => hnot ?_, fun _ => by rw [hproduced], fun hsome => absurd hsome hother⟩
    rw [hqueue]
    exact List.mem_cons_of_mem _ hmem

private theorem placed_raised (raised : Raised) :
    Placed lib cmd caller s (.done (settle lib cmd (.error raised))) := by
  refine .done fun result hout => ?_
  obtain ⟨message, heq, _⟩ := settle_loaded hout
  cases heq

/-- What one await of a call does to the call, the connection and the other calls. -/
theorem InTurn.call {c : ClientAwait ι} {next : c.Reply → Remaining ι φ} {reply : c.Reply} (h : InTurn s)
    (hplaced : Placed lib cmd caller s (.call c next)) (hserves : serves lib c s reply s')
    (hturn : OwnTurn (caller, ⟨c, s, reply, s'⟩)) :
    InTurn s' ∧ Placed lib cmd caller s' (next reply) ∧ ∀ other, other ≠ caller → Spared s s' other := by
  generalize hp : Program.call c next = p at hplaced
  cases hplaced with
  | sending hfresh =>
    cases hp
    rcases hserves with ⟨rfl, rfl⟩ | ⟨rfl, rfl⟩
    · refine ⟨⟨h.matched.submit hfresh _, fun receiver hreceiver => ?_⟩, .draining, fun other hother => ?_⟩
      · change ((s.submit _ _).queue).head? = _
        rw [Pipeline.queue_submit, List.head?_append, h.receiver receiver hreceiver]
        rfl
      · refine ⟨fun hnot hmem => ?_, fun _ => rfl, id⟩
        change other ∈ (s.submit _ _).queue at hmem
        rw [Pipeline.queue_submit, List.mem_append, List.mem_singleton] at hmem
        exact hmem.elim hnot hother
    · exact ⟨h, placed_raised _, fun other _ => .refl _ other⟩
  | draining =>
    cases hp
    obtain ⟨rfl | rfl, rfl⟩ := hserves
    · exact ⟨h, .receiving, fun other _ => .refl _ other⟩
    · exact ⟨h, placed_raised _, fun other _ => .refl _ other⟩
  | receiving =>
    cases hp
    have hnone (hreceiver : s.receiver = none) (other : ι) : s.receiver ≠ some other := by
      rw [hreceiver]
      exact nofun
    rcases serves_recv hserves with ⟨_, _, rfl, rfl⟩ | ⟨result, later, hreceiver, htake, rfl, rfl⟩ |
      ⟨hreceiver, rfl, rfl⟩
    · exact ⟨h, placed_raised _, fun other _ => .refl _ other⟩
    · obtain ⟨hinTurn, hdone, hspared⟩ := h.take lib cmd htake (hturn hreceiver)
      rw [hreceiver]
      exact ⟨hinTurn, hdone, fun other _ => hspared other (hnone hreceiver other)⟩
    · refine ⟨⟨h.matched, fun receiver heq => ?_⟩, .resuming rfl, fun other _ => ?_⟩
      · cases heq
        exact hturn hreceiver
      · exact ⟨id, fun _ => rfl, fun heq => absurd heq (hnone hreceiver other)⟩
  | resuming hreceiver =>
    cases hp
    have hne {other : ι} (hother : other ≠ caller) : s.receiver ≠ some other := by
      rw [hreceiver]
      exact fun heq => hother (Option.some.inj heq).symm
    rcases hserves with ⟨result, later, htake, rfl, rfl⟩ | ⟨rfl, rfl⟩
    · obtain ⟨hinTurn, hdone, hspared⟩ := h.take lib cmd htake (h.receiver _ hreceiver)
      exact ⟨hinTurn, hdone, fun other hother => hspared other (hne hother)⟩
    · refine ⟨⟨h.matched, fun _ hnone => by cases hnone⟩, placed_raised _, fun other hother => ?_⟩
      exact ⟨id, fun _ => rfl, fun heq => absurd heq (hne hother)⟩
  | done _ => cases hp

/-- The calls, and the connection between them, when every `recv` so far has started in its turn. -/
structure Paired (lib : Stdlib φ) (cmd : ι → Command φ)
    (cfg : Config ι (@ClientAwait.Reply ι) (Connection ι φ) (Except Raised (Returned φ))) : Prop where
  inTurn : InTurn cfg.state
  fresh : ∀ caller, cfg.thread caller = none → caller ∉ cfg.state.queue
  placed : ∀ caller p, cfg.thread caller = some p → Placed lib (cmd caller) caller cfg.state p

variable [DecidableEq ι] {cmd : ι → Command φ}
  {cfg : Config ι (@ClientAwait.Reply ι) (Connection ι φ) (Except Raised (Returned φ))}

/-- Where one call has moved on and the others have been spared. -/
theorem Paired.run (h : Paired lib cmd cfg) (hinTurn : InTurn s) (caller : ι)
    (hplaced : Placed lib (cmd caller) caller s p)
    (hspared : ∀ other, other ≠ caller → Spared cfg.state s other) :
    Paired lib cmd (Config.run { cfg with state := s } caller p) := by
  refine ⟨hinTurn, fun other hother => ?_, fun other q hother => ?_⟩
  · by_cases hcaller : other = caller
    · subst hcaller
      rw [Config.run_thread_self] at hother
      cases hother
    · rw [Config.run_thread_of_ne hcaller] at hother
      exact (hspared other hcaller).queue (h.fresh other hother)
  · by_cases hcaller : other = caller
    · subst hcaller
      rw [Config.run_thread_self] at hother
      cases hother
      exact hplaced
    · rw [Config.run_thread_of_ne hcaller] at hother
      exact (h.placed other q hother).spared (hspared other hcaller)

theorem Paired.start (h : Paired lib cmd cfg) (hcaller : cfg.thread caller = none) :
    Paired lib cmd (cfg.run caller ((client lib cmd).program caller)) := by
  have hplaced : Placed lib (cmd caller) caller cfg.state ((client lib cmd).program caller) := by
    change Placed lib (cmd caller) caller cfg.state (sendAction lib true caller (cmd caller)).run
    cases hannounce : announce lib (cmd caller) with
    | ok _ =>
      rw [sendAction_run_ok hannounce]
      exact .sending (h.fresh caller hcaller)
    | error e =>
      rw [sendAction_run_error hannounce]
      exact placed_raised (.exception e)
  exact h.run h.inTurn caller hplaced fun other _ => .refl _ other

theorem Paired.environment (h : Paired lib cmd cfg) (result : Result φ) :
    Paired lib cmd { cfg with state := { cfg.state with toPipeline := cfg.state.answer result } } := by
  have hqueue : (cfg.state.answer result).queue = cfg.state.queue := Pipeline.queue_answer _ _
  have hspared (caller : ι) :
      Spared cfg.state { cfg.state with toPipeline := cfg.state.answer result } caller := by
    refine ⟨fun hnot => ?_, fun hnot => Pipeline.produced_answer hnot result, id⟩
    rwa [hqueue]
  refine ⟨⟨h.inTurn.matched.answer result, fun receiver hreceiver => ?_⟩, fun caller hcaller => ?_,
    fun caller p hcaller => (h.placed caller p hcaller).spared (hspared caller)⟩
  · rw [hqueue]
    exact h.inTurn.receiver receiver hreceiver
  · exact (hspared caller).queue (h.fresh caller hcaller)

section visits
variable {P : ι × Served (@ClientAwait.Reply ι) (Connection ι φ) → Prop}
  {origin : Config ι (@ClientAwait.Reply ι) (Connection ι φ) (Except Raised (Returned φ))}
  {thread : ι → Option (Remaining ι φ)}

/-- A call that nobody cancels gets as far as its `recv`. -/
private theorem visits_receiving (h : (client lib cmd).Visits P origin ⟨s, thread⟩)
    (hP : ∀ e, (∀ i, e.2.call ≠ .recv i) → P e) (hannounce : announce lib (cmd caller) = .ok ())
    (hcaller : thread caller = none) :
    (client lib cmd).Visits P origin
      ⟨{ s with toPipeline := s.submit caller ((cmd caller).dump lib) },
        Function.update thread caller (some (receiving lib (cmd caller) caller))⟩ := by
  have hprogram : (client lib cmd).program caller = sending lib (cmd caller) caller := by
    exact sendAction_run_ok hannounce
  have hsending := h.start hcaller
  rw [hprogram] at hsending
  have hdraining := hsending.call (r := .ok ()) (Or.inl ⟨rfl, rfl⟩) (hP _ nofun)
  exact hdraining.call (r := .ok ()) ⟨Or.inl rfl, rfl⟩ (hP _ nofun)

/-- A call that has the connection to itself gets the reply the server produces for it. -/
private theorem visits_alone {produced : ι → Option (Result φ)} {result : Result φ} {returned : Returned φ}
    (h : (client lib cmd).Visits OwnTurn origin ⟨⟨⟨[], [], produced⟩, none⟩, thread⟩)
    (hannounce : announce lib (cmd caller) = .ok ())
    (haccept : accept lib (.bytes (result.dump lib)) = .ok returned) (hcaller : thread caller = none) :
    (client lib cmd).Visits OwnTurn origin
      ⟨⟨⟨[], [], Function.update produced caller (some result)⟩, none⟩,
        Function.update thread caller (some (.done (.ok returned)))⟩ := by
  have hreceiving := visits_receiving h (fun _ => ownTurn_of_ne_recv) hannounce hcaller
  have hresuming := hreceiving.call (r := .ok none)
    (t := ⟨⟨[(caller, (cmd caller).dump lib)], [], produced⟩, some caller⟩) ⟨rfl, rfl⟩ (fun _ => rfl)
  have hanswered := hresuming.environment
    (t := ⟨⟨[], [(caller, result)], Function.update produced caller (some result)⟩, some caller⟩)
    ⟨result, rfl⟩
  have hdone := hanswered.call (r := .ok (.bytes (result.dump lib)))
    (t := ⟨⟨[], [], Function.update produced caller (some result)⟩, none⟩)
    (Or.inl ⟨result, _, rfl, rfl, rfl⟩) trivial
  rwa [settle_accepted haccept] at hdone

end visits

/-- In every run in which each `recv` starts in its turn, a call that returns a loaded result returns the
one that the server produced for its own command. -/
theorem replies_paired (lib : Stdlib φ) (cmd : ι → Command φ)
    {past : List (ι × Served (@ClientAwait.Reply ι) (Connection ι φ))}
    (h : (client lib cmd).Traced (.initial {}) past cfg) (hturns : ∀ e ∈ past, OwnTurn e) :
    ∀ caller result, cfg.finished caller (.ok (.loaded result)) → Own lib cfg.state caller result := by
  have hpaired : Paired lib cmd cfg := by
    induction h with
    | nil => exact ⟨⟨Pipeline.matched_empty, nofun⟩, fun _ _ => List.not_mem_nil, nofun⟩
    | start caller _ hcaller ih => exact (ih hturns).start hcaller
    | call caller _ hcaller served ih =>
      rw [List.forall_mem_cons] at hturns
      have hpaired := ih hturns.2
      obtain ⟨hinTurn, hplaced, hspared⟩ :=
        hpaired.inTurn.call (hpaired.placed caller _ hcaller) served hturns.1
      exact hpaired.run hinTurn caller hplaced hspared
    | environment _ hanswer ih =>
      obtain ⟨result, rfl⟩ := hanswer
      exact (ih hturns).environment result
  intro caller result hfinished
  have hplaced := hpaired.placed caller _ hfinished
  generalize hp : (Program.done (.ok (.loaded result)) : Remaining ι φ) = p at hplaced
  cases hplaced with
  | done hdone =>
    cases hp
    exact (hdone result rfl).2
  | _ => cases hp

def screenshotCommand : Command Unit := { actionType := .screenshot }

def verdict (b : Bool) : Result Unit := { success := .bool b }

/-- JSON as far as the command and the two verdicts need it. -/
def verdictLib : Stdlib Unit :=
  { Stdlib.sample "\x7b\"action_type\": \"screenshot\", \"timeout\": 30000\x7d" screenshotCommand.entries [] with
    dumps := fun
      | .dict [(_, .bool true)] => "\x7b\"success\": true\x7d".toList
      | .dict [(_, .bool false)] => "\x7b\"success\": false\x7d".toList
      | _ => "\x7b\"action_type\": \"screenshot\", \"timeout\": 30000\x7d".toList
    loads := fun text =>
      if text = "\x7b\"success\": true\x7d".toList then .ok (.dict [(str "success", .bool true)])
      else if text = "\x7b\"success\": false\x7d".toList then .ok (.dict [(str "success", .bool false)])
      else .ok (.dict screenshotCommand.entries) }

private theorem load_verdict (b : Bool) : Result.load verdictLib ((verdict b).dump verdictLib) = .ok (verdict b) := by
  refine Result.load_dump ⟨⟨b, rfl⟩, Or.inl rfl⟩ (fun _ _ => ?_) nofun
  cases b with
  | false => rfl
  | true => rfl

private theorem accept_verdict (b : Bool) :
    accept verdictLib (.bytes ((verdict b).dump verdictLib)) = .ok (.loaded (verdict b)) := by
  simp only [accept, load_verdict]
  cases b with
  | false => rfl
  | true => rfl

set_option maxRecDepth 2000 in
private theorem announce_screenshot : announce verdictLib screenshotCommand = .ok () := rfl

def screenshots : System Nat (@ClientAwait.Reply Nat) (Connection Nat Unit) (Except Raised (Returned Unit)) :=
  client verdictLib fun _ => screenshotCommand

/-- Two calls, the second one after the first. -/
theorem replies_paired_inSuccession : ∃ past cfg, screenshots.Traced (.initial {}) past cfg ∧
    Own verdictLib cfg.state 0 (verdict true) ∧ Own verdictLib cfg.state 1 (verdict false) := by
  have horigin : screenshots.Visits OwnTurn (.initial {}) ⟨⟨⟨[], [], fun _ => none⟩, none⟩, fun _ => none⟩ :=
    ⟨[], .nil, fun _ he => by cases he⟩
  have hfirst : screenshots.Visits OwnTurn (.initial {})
      ⟨⟨⟨[], [], Function.update (fun _ => none) 0 (some (verdict true))⟩, none⟩,
        Function.update (fun _ => none) 0 (some (.done (.ok (.loaded (verdict true)))))⟩ :=
    visits_alone horigin announce_screenshot (accept_verdict true) rfl
  have hsecond : screenshots.Visits OwnTurn (.initial {})
      ⟨⟨⟨[], [], Function.update (Function.update (fun _ => none) 0 (some (verdict true))) 1
          (some (verdict false))⟩, none⟩,
        Function.update (Function.update (fun _ => none) 0 (some (.done (.ok (.loaded (verdict true)))))) 1
          (some (.done (.ok (.loaded (verdict false)))))⟩ :=
    visits_alone hfirst announce_screenshot (accept_verdict false) rfl
  obtain ⟨past, htraced, hturns⟩ := hsecond
  have hown := replies_paired verdictLib (fun _ => screenshotCommand) htraced hturns
  exact ⟨past, _, htraced, hown 0 _ rfl, hown 1 _ rfl⟩

/-- The first call is cancelled while it waits; the second one gets its reply, and never its own. -/
theorem cancelled_reply_misdelivered : ∃ past cfg, screenshots.Traced (.initial {}) past cfg ∧
    cfg.finished 0 (.error .cancelled) ∧ cfg.finished 1 (.ok (.loaded (verdict false))) ∧
    cfg.state.produced 0 = some (verdict false) ∧ cfg.state.produced 1 = some (verdict true) ∧
    ¬ Own verdictLib cfg.state 1 (verdict false) := by
  have horigin : screenshots.Visits (fun _ => True) (.initial {}) ⟨⟨⟨[], [], fun _ => none⟩, none⟩, fun _ => none⟩ :=
    ⟨[], .nil, fun _ _ => trivial⟩
  have hreceiving : screenshots.Visits (fun _ => True) (.initial {})
      ⟨⟨⟨[(0, screenshotCommand.dump verdictLib)], [], fun _ => none⟩, none⟩,
        Function.update (fun _ => none) 0 (some (receiving verdictLib screenshotCommand 0))⟩ :=
    visits_receiving horigin (fun _ _ => trivial) announce_screenshot rfl
  have hresuming := hreceiving.call (r := .ok none)
    (t := ⟨⟨[(0, screenshotCommand.dump verdictLib)], [], fun _ => none⟩, some 0⟩) ⟨rfl, rfl⟩ trivial
  have hcancelled := hresuming.call (r := .error .cancelled)
    (t := ⟨⟨[(0, screenshotCommand.dump verdictLib)], [], fun _ => none⟩, none⟩) (Or.inr ⟨rfl, rfl⟩) trivial
  have hsecond := visits_receiving hcancelled (fun _ _ => trivial) announce_screenshot
    (Function.update_of_ne Nat.one_ne_zero _ _)
  have hanswered := hsecond.environment
    (t := ⟨⟨[(1, screenshotCommand.dump verdictLib)], [(0, verdict false)],
      Function.update (fun _ => none) 0 (some (verdict false))⟩, none⟩) ⟨verdict false, rfl⟩
  have hanswered' := hanswered.environment
    (t := ⟨⟨[], [(0, verdict false), (1, verdict true)],
      Function.update (Function.update (fun _ => none) 0 (some (verdict false))) 1 (some (verdict true))⟩, none⟩)
    ⟨verdict true, rfl⟩
  have hreceived := hanswered'.call (r := .ok (some (.bytes ((verdict false).dump verdictLib))))
    (t := ⟨⟨[], [(1, verdict true)],
      Function.update (Function.update (fun _ => none) 0 (some (verdict false))) 1 (some (verdict true))⟩, none⟩)
    ⟨rfl, rfl⟩ trivial
  obtain ⟨past, htraced, _⟩ := hreceived
  refine ⟨past, _, htraced, rfl, ?_, rfl, rfl, ?_⟩
  · exact congrArg (fun out => some (Program.done out)) (settle_accepted (accept_verdict false))
  · intro hown
    obtain ⟨produced, hproduced, hload⟩ := hown
    obtain rfl : verdict true = produced := Option.some.inj hproduced
    rw [load_verdict] at hload
    cases hload

end WayPoint.Wright.TzafonWrightClient
