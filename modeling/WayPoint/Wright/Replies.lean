import WayPoint.Wright.RoundTrip
import WayPoint.Wright.Server

/-! One reply for each message. What can go wrong is a `print` inside a handler, whose text quotes the
message only when the action type is not one of the known ones. -/
namespace WayPoint.Wright
open Foundations

variable {φ : Type} {lib : Stdlib φ} {message : Message}

/-- The message holds an object whose action type is a string with a lone surrogate. -/
def SurrogateAction (lib : Stdlib φ) (message : Message) : Prop :=
  ∃ data s, message.loads lib = .ok (.dict data) ∧ data.lookup Command.actionTypeKey = some (.str s) ∧
    s.hasSurrogate

theorem ActionType.ofValue_surrogate {s : Str} (h : s.hasSurrogate) : ofValue (.str s : Value φ) = none := by
  cases ha : ofValue (.str s : Value φ) with
  | none => rfl
  | some a =>
    obtain rfl : s = a.value := Value.str.inj (value_of_ofValue ha)
    cases a <;> exact absurd h (by rw [ActionType.value, hasSurrogate_str]; exact Bool.false_ne_true)

namespace Command

private theorem parse_surrogate (h : SurrogateAction lib message) :
    ∃ s, s.hasSurrogate ∧ parse lib message = .error ⟨.valueError, str "Invalid action_type: " ++ s⟩ := by
  obtain ⟨data, s, hloads, hlookup, hs⟩ := h
  have htruthy : lib.truthy (.str s) = true := by
    cases s with
    | nil => cases hs
    | cons c s => rfl
  refine ⟨s, hs, ?_⟩
  simp only [parse, hloads, raising, bind, Except.bind, fromData, Value.pop, hlookup, Option.getD_some,
    htruthy, Bool.not_true, Bool.false_eq_true, if_false, ActionType.ofValue_surrogate hs, Stdlib.format]
  rfl

private theorem fromData_error {data : List (Str × Value φ)} {e : PyException}
    (h : fromData lib (.dict data) = .error e) (hs : e.text.hasSurrogate) :
    ∃ s, data.lookup actionTypeKey = some (.str s) ∧ s.hasSurrogate := by
  simp only [fromData, Value.pop, raising, bind, Except.bind] at h
  split at h
  · cases h
    rw [hasSurrogate_str] at hs
    cases hs
  · split at h
    · cases hformat : lib.format ((data.lookup actionTypeKey).getD .none) with
      | error b =>
        rw [hformat] at h
        cases h
        rw [BuiltinError.hasSurrogate_text] at hs
        cases hs
      | ok s =>
        rw [hformat] at h
        cases h
        rw [hasSurrogate_append, hasSurrogate_str, Bool.false_or] at hs
        rcases lib.format_ok hformat with hv | hno
        · refine ⟨s, ?_, hs⟩
          cases hlookup : data.lookup actionTypeKey with
          | none =>
            rw [hlookup] at hv
            cases hv
          | some v =>
            rw [hlookup, Option.getD_some] at hv
            rw [hv]
        · rw [hno] at hs
          cases hs
    · cases h

private theorem parse_error {e : PyException} (h : parse lib message = .error e) (hs : e.text.hasSurrogate) :
    SurrogateAction lib message := by
  rcases bind_eq_error_iff.mp h with hloads | ⟨value, hloads, h⟩
  · rw [raising_error hloads] at hs
    cases hs
  · cases value with
    | dict data =>
      obtain ⟨s, hlookup, hs⟩ := fromData_error h hs
      exact ⟨data, s, raising_ok hloads, hlookup, hs⟩
    | _ =>
      cases h
      rw [BuiltinError.hasSurrogate_text] at hs
      cases hs

/-- Whatever is wrong with a message, it is a `ValueError`, and its text can be printed unless it quotes
the action type. -/
private theorem load_error {e : PyException} (h : load lib message = .error e) :
    e.type = .valueError ∧ (e.text.hasSurrogate ↔ SurrogateAction lib message) := by
  cases hparse : parse lib message with
  | ok cmd =>
    rw [load, hparse] at h
    cases h
  | error e' =>
    have htext : e.type = .valueError ∧ e.text.hasSurrogate = e'.text.hasSurrogate := by
      rw [load, hparse] at h
      simp only at h
      split at h
      · cases h
        exact ⟨rfl, by simp⟩
      · cases h
        exact ⟨rfl, by simp⟩
    refine ⟨htext.1, ?_⟩
    rw [htext.2]
    constructor
    · exact parse_error hparse
    · intro hsurrogate
      obtain ⟨s, hs, hparse'⟩ := parse_surrogate hsurrogate
      rw [hparse'] at hparse
      cases hparse
      simp [hs]

theorem load_surrogate (h : SurrogateAction lib message) : ∃ e, load lib message = .error e := by
  obtain ⟨s, _, hparse⟩ := parse_surrogate h
  rw [load, hparse]
  exact ⟨_, rfl⟩

end Command
namespace BrowserServer

variable {α : Type} {page : Bool} {peerName : Text} {messages : List Message}
  {said : List (Sigma (@Awaited.Reply φ))}

def Quiet (call : Awaited φ) : Prop := ∀ response, call ≠ .send response

def SendSucceeds : Sigma (@Awaited.Reply φ) → Prop
  | ⟨.send _, reply⟩ => reply = .ok ()
  | _ => True

/-- The calls of a connection are those for its messages in their order, and after those for a message
that one result is sent which they led to. -/
inductive Answers (lib : Stdlib φ) (page : Bool) :
    List Message → List (Result φ) → List (Sigma (@Awaited.Reply φ)) → Prop where
  | nil : Answers lib page [] [] []
  | cons {message : Message} {later : List Message} {result : Result φ} {results : List (Result φ)}
      {said saidLater : List (Sigma (@Awaited.Reply φ))}
      (hresult : (resultOf lib page message).run.Dialogue said (.ok result))
      (hquiet : ∀ e ∈ said, Quiet e.1)
      (hrejected : ∀ e, Command.load lib message = .error e → result.success = .bool false)
      (hlater : Answers lib page later results saidLater) :
      Answers lib page (message :: later) (result :: results)
        (said ++ ⟨.send (result.dump lib), .ok ()⟩ :: saidLater)

private theorem dialogue_await_iff {call : Awaited φ} {out : call.Reply} :
    (await call).run.Dialogue said out ↔ said = [⟨call, out⟩] := by
  change Program.Dialogue (.call call .done) said out ↔ _
  rw [Program.dialogue_call_iff]
  constructor
  · intro h
    obtain ⟨r, rest, rfl, hrest⟩ := h
    obtain ⟨rfl, rfl⟩ := Program.dialogue_done_iff.mp hrest
    rfl
  · intro h
    exact ⟨out, [], h, .done out⟩

/-- A handler that prints and then returns does not return if the text cannot be printed. -/
theorem dialogue_print {s : Str} {a : α} {out : Except PyException α}
    (h : Program.Dialogue (do lib.print s; return a : Coroutine φ α).run said out) :
    said = [] ∧ (s.hasSurrogate = false ∧ out = .ok a ∨
      s.hasSurrogate ∧ ∃ e, out = .error e ∧ e.text.hasSurrogate = false) := by
  rw [Program.dialogue_run_bind_iff] at h
  simp only [Program.dialogue_run_lift_iff, Program.dialogue_run_pure_iff] at h
  rcases h with ⟨e, ⟨rfl, hprint⟩, rfl⟩ | ⟨_, _, _, rfl, ⟨rfl, hprint⟩, rfl, rfl⟩
  · obtain ⟨hs, he⟩ := lib.print_error hprint.symm
    exact ⟨rfl, Or.inr ⟨hs, e, rfl, he⟩⟩
  · exact ⟨rfl, Or.inl ⟨lib.print_ok hprint.symm, rfl⟩⟩

private theorem dialogue_print_error {s : Str} {a : α} {e : PyException}
    (h : Program.Dialogue (do lib.print s; return a : Coroutine φ α).run said (.error e)) :
    e.text.hasSurrogate = false := by
  obtain ⟨_, ⟨_, hout⟩ | ⟨_, _, hout, he⟩⟩ := dialogue_print h
  · cases hout
  · cases hout
    exact he

private theorem dialogue_print_ok {s : Str} {a : α} {out : Except PyException α}
    (h : Program.Dialogue (do lib.print s; return a : Coroutine φ α).run said out)
    (hs : s.hasSurrogate = false) : out = .ok a := by
  obtain ⟨_, ⟨_, hout⟩ | ⟨hsurrogate, _⟩⟩ := dialogue_print h
  · exact hout
  · rw [hs] at hsurrogate
    cases hsurrogate

private theorem processCommand_error {cmd : Command φ} {e : PyException}
    (h : (processCommand lib page cmd).run.Dialogue said (.error e)) : e.text.hasSurrogate = false := by
  unfold processCommand at h
  split at h
  · cases h
  · rcases Program.dialogue_run_tryCatch_iff.mp h with ⟨_, _, hout⟩ | ⟨raised, _, _, _, _, hhandler⟩
    · cases hout
    · split at hhandler
      · exact dialogue_print_error hhandler
      · exact dialogue_print_error hhandler

private theorem parsedAction_error {cmd : Command φ} {e : PyException} (h : parsedAction lib cmd = .error e) :
    e.text.hasSurrogate = false := by
  unfold parsedAction at h
  simp only at h
  split at h
  · cases h
  · rcases bind_eq_error_iff.mp h with hrepr | ⟨text, _, h⟩
    · exact raising_error hrepr
    · cases h

/-- Only an exception of `load` has a text that cannot be printed. -/
private theorem processMessage_error {e : PyException}
    (h : (processMessage lib page message).run.Dialogue said (.error e)) :
    e.text.hasSurrogate ↔ SurrogateAction lib message := by
  rw [processMessage, Program.dialogue_run_bind_iff] at h
  simp only [Program.dialogue_run_lift_iff] at h
  rcases h with ⟨e', ⟨_, hload⟩, heq⟩ | ⟨cmd, _, second, _, ⟨_, hload⟩, h⟩
  · cases heq
    exact (Command.load_error hload.symm).2
  · have hprintable : e.text.hasSurrogate = false := by
      rw [Program.dialogue_run_bind_iff] at h
      simp only [Program.dialogue_run_lift_iff] at h
      rcases h with ⟨e', ⟨_, hparsed⟩, heq⟩ | ⟨text, _, second, _, _, h⟩
      · cases heq
        exact parsedAction_error hparsed.symm
      · rw [Program.dialogue_run_bind_iff] at h
        simp only [Program.dialogue_run_lift_iff] at h
        rcases h with ⟨e', ⟨_, hprint⟩, heq⟩ | ⟨_, _, _, _, _, h⟩
        · cases heq
          exact (lib.print_error hprint.symm).2
        · exact processCommand_error h
    rw [hprintable]
    constructor
    · intro hfalse
      cases hfalse
    · intro hsurrogate
      obtain ⟨e', herror⟩ := Command.load_surrogate hsurrogate
      rw [herror] at hload
      cases hload

/-- What is sent for a message that can be reported on. -/
theorem resultOf_ok {out : Except PyException (Result φ)} (hgood : ¬ SurrogateAction lib message)
    (h : (resultOf lib page message).run.Dialogue said out) :
    ∃ result, out = .ok result ∧
      ∀ e, Command.load lib message = .error e → result.success = .bool false := by
  rcases Program.dialogue_run_tryCatch_iff.mp h with ⟨result, hprocess, rfl⟩ | ⟨e, _, _, _, hprocess, hhandler⟩
  · refine ⟨result, rfl, fun e herror => ?_⟩
    rw [processMessage, Program.dialogue_run_bind_iff] at hprocess
    simp only [Program.dialogue_run_lift_iff, herror] at hprocess
    rcases hprocess with ⟨_, _, hout⟩ | ⟨_, _, _, _, ⟨_, hload⟩, _⟩
    · cases hout
    · cases hload
  · have htext : e.text.hasSurrogate = false :=
      Bool.eq_false_iff.mpr fun hs => hgood ((processMessage_error hprocess).mp hs)
    have hprintable (s : String) : Str.hasSurrogate (str s ++ e.text) = false := by
      rw [hasSurrogate_append, hasSurrogate_str, htext]
      rfl
    split at hhandler
    · exact ⟨_, dialogue_print_ok hhandler (hprintable _), fun _ _ => rfl⟩
    · exact ⟨_, dialogue_print_ok hhandler (hprintable _), fun _ _ => rfl⟩

/-- The report itself fails where the text of the exception quotes a surrogate. -/
private theorem resultOf_surrogate {out : Except PyException (Result φ)} (hbad : SurrogateAction lib message)
    (h : (resultOf lib page message).run.Dialogue said out) : said = [] ∧ ∃ e, out = .error e := by
  obtain ⟨error, herror⟩ := Command.load_surrogate hbad
  have hprocess {said out} (h : (processMessage lib page message).run.Dialogue said out) :
      said = [] ∧ out = .error error := by
    rw [processMessage, Program.dialogue_run_bind_iff] at h
    simp only [Program.dialogue_run_lift_iff, herror] at h
    rcases h with ⟨_, ⟨hsaid, heq⟩, rfl⟩ | ⟨_, _, _, _, ⟨_, hload⟩, _⟩
    · cases heq
      exact ⟨hsaid, rfl⟩
    · cases hload
  obtain ⟨htype, htext⟩ := Command.load_error herror
  rcases Program.dialogue_run_tryCatch_iff.mp h with ⟨_, hok, _⟩ | ⟨e, first, second, rfl, hraised, hhandler⟩
  · cases (hprocess hok).2
  · obtain ⟨rfl, heq⟩ := hprocess hraised
    cases heq
    rw [htype] at hhandler
    obtain ⟨rfl, ⟨hs, _⟩ | ⟨_, e, rfl, _⟩⟩ := dialogue_print hhandler
    · rw [hasSurrogate_append, hasSurrogate_str, htext.mpr hbad] at hs
      cases hs
    · exact ⟨rfl, e, rfl⟩

private theorem performAction_quiet (cmd : Command φ) : (performAction lib cmd).run.Within Quiet := by
  have hawait {call : Awaited φ} (h : Quiet call) : (await call).run.Within Quiet := ⟨h, fun _ => trivial⟩
  have hprint (s : Str) : (liftM (lib.print s) : Coroutine φ Unit).run.Within Quiet := Program.within_run_lift _
  have hraising {α : Type} (r : Except BuiltinError α) : (liftM (raising r) : Coroutine φ α).run.Within Quiet :=
    Program.within_run_lift _
  unfold performAction
  cases cmd.actionType with
  | goto =>
    simp only
    split
    · trivial
    refine Program.within_run_bind (hraising _) fun url => Program.within_run_bind (hprint _) fun _ => ?_
    refine Program.within_run_bind (hawait (by simp [Quiet])) fun response => ?_
    exact Program.within_run_bind (hprint _) fun _ => trivial
  | click =>
    simp only
    split
    · trivial
    refine Program.within_run_bind (hraising _) fun x => Program.within_run_bind (hraising _) fun y => ?_
    refine Program.within_run_bind (hprint _) fun _ => ?_
    refine Program.within_run_bind (hraising _) fun x => Program.within_run_bind (hraising _) fun y => ?_
    exact Program.within_run_bind (hawait (by simp [Quiet])) fun _ => trivial
  | type =>
    simp only
    split
    · trivial
    refine Program.within_run_bind (hraising _) fun _ => ?_
    exact Program.within_run_bind (hawait (by simp [Quiet])) fun _ => trivial
  | scroll =>
    simp only
    refine Program.within_run_bind (hraising _) fun dx => Program.within_run_bind (hraising _) fun dy => ?_
    refine Program.within_run_bind (hprint _) fun _ => ?_
    exact Program.within_run_bind (hawait (by simp [Quiet])) fun _ => trivial
  | screenshot => exact Program.within_run_bind (hawait (by simp [Quiet])) fun _ => trivial
  | setViewportSize =>
    simp only
    split
    · trivial
    refine Program.within_run_bind (hraising _) fun w => Program.within_run_bind (hraising _) fun h => ?_
    exact Program.within_run_bind (hawait (by simp [Quiet])) fun _ => trivial

private theorem resultOf_quiet (message : Message) : (resultOf lib page message).run.Within Quiet := by
  have hreport {α : Type} (s : Str) (a : α) :
      Program.Within Quiet (do lib.print s; return a : Coroutine φ α).run :=
    Program.within_run_bind (Program.within_run_lift _) fun _ => trivial
  refine Program.within_run_tryCatch ?_ fun e => ?_
  · refine Program.within_run_bind (Program.within_run_lift _) fun cmd => ?_
    refine Program.within_run_bind (Program.within_run_lift _) fun text => ?_
    refine Program.within_run_bind (Program.within_run_lift _) fun _ => ?_
    unfold processCommand
    split
    · trivial
    refine Program.within_run_tryCatch (performAction_quiet cmd) fun e => ?_
    split
    · exact hreport _ _
    · exact hreport _ _
  · split
    · exact hreport _ _
    · exact hreport _ _

/-- A response is sent once, and after that the loop goes on. -/
private theorem respond_sent {result : Result φ} {out : Except PyException Bool}
    (h : (respond lib peerName result).run.Dialogue said out) (hsends : ∀ e ∈ said, SendSucceeds e) :
    said = [⟨.send (result.dump lib), .ok ()⟩] ∧ out = .ok true := by
  rcases Program.dialogue_run_tryCatch_iff.mp h with ⟨_, hsent, rfl⟩ | ⟨e, first, second, rfl, hsent, _⟩
  · rcases Program.dialogue_run_bind_iff.mp hsent with ⟨_, _, hout⟩ | ⟨_, _, _, rfl, hsent, hreturn⟩
    · cases hout
    · obtain rfl := dialogue_await_iff.mp hsent
      obtain ⟨rfl, hout⟩ := Program.dialogue_run_pure_iff.mp hreturn
      exact ⟨rfl, hout⟩
  · rcases Program.dialogue_run_bind_iff.mp hsent with ⟨_, hraised, _⟩ | ⟨_, _, _, _, _, hreturn⟩
    · obtain rfl := dialogue_await_iff.mp hraised
      cases hsends _ List.mem_cons_self
    · cases (Program.dialogue_run_pure_iff.mp hreturn).2

theorem handleMessages_answers {out : Except PyException Unit}
    (hgood : ∀ message ∈ messages, ¬ SurrogateAction lib message)
    (h : (handleMessages lib page peerName messages).run.Dialogue said out)
    (hsends : ∀ e ∈ said, SendSucceeds e) :
    (∃ results, Answers lib page messages results said) ∧ out = .ok () := by
  induction messages generalizing said with
  | nil =>
    obtain ⟨rfl, rfl⟩ := Program.dialogue_run_pure_iff.mp h
    exact ⟨⟨[], .nil⟩, rfl⟩
  | cons message later ih =>
    rw [List.forall_mem_cons] at hgood
    rw [handleMessages, Program.dialogue_run_bind_iff] at h
    rcases h with ⟨_, hraised, _⟩ | ⟨result, first, _, rfl, hresult, h⟩
    · obtain ⟨_, hout, _⟩ := resultOf_ok hgood.1 hraised
      cases hout
    obtain ⟨_, hout, hrejected⟩ := resultOf_ok hgood.1 hresult
    cases hout
    rw [Program.dialogue_run_bind_iff] at h
    rcases h with ⟨_, hraised, _⟩ | ⟨_, sent, second, rfl, hsent, h⟩
    · cases (respond_sent hraised fun e he => hsends e (List.mem_append_right _ he)).2
    obtain ⟨rfl, hout⟩ := respond_sent hsent fun e he =>
      hsends e (List.mem_append_right _ (List.mem_append_left _ he))
    cases hout
    obtain ⟨⟨results, hlater⟩, hout⟩ := ih hgood.2 h fun e he =>
      hsends e (List.mem_append_right _ (List.mem_append_right _ he))
    exact ⟨⟨result :: results, .cons hresult (hresult.within (resultOf_quiet message)) hrejected hlater⟩, hout⟩

theorem Answers.good {results : List (Result φ)} (h : Answers lib page messages results said) :
    ∀ message ∈ messages, ¬ SurrogateAction lib message := by
  induction h with
  | nil => exact fun _ hmem => by cases hmem
  | cons hresult hquiet hrejected hlater ih =>
    refine List.forall_mem_cons.mpr ⟨fun hbad => ?_, ih⟩
    obtain ⟨_, _, hout⟩ := resultOf_surrogate hbad hresult
    cases hout

/-- After such a message nothing is sent any more. -/
private theorem handleConnection_surrogate {out : Except PyException Unit} (hbad : SurrogateAction lib message)
    (h : (handleConnection lib page peerName (message :: messages)).run.Dialogue said out) : said = [] := by
  have hloop {said out} (h : (handleMessages lib page peerName (message :: messages)).run.Dialogue said out) :
      said = [] ∧ ∃ e, out = .error e := by
    rw [handleMessages, Program.dialogue_run_bind_iff] at h
    rcases h with ⟨e, hraised, rfl⟩ | ⟨_, _, _, _, hresult, _⟩
    · exact ⟨(resultOf_surrogate hbad hraised).1, e, rfl⟩
    · obtain ⟨_, _, hout⟩ := resultOf_surrogate hbad hresult
      cases hout
  rcases Program.dialogue_run_tryCatch_iff.mp h with ⟨_, hok, _⟩ | ⟨_, _, _, rfl, hraised, hprint⟩
  · obtain ⟨_, _, hout⟩ := hloop hok
    cases hout
  · obtain ⟨rfl, _⟩ := hloop hraised
    exact (Program.dialogue_run_lift_iff.mp hprint).1

/-- Exactly one reply is sent for each message unless an action type has a lone surrogate. -/
theorem answers_iff {out : Except PyException Unit}
    (h : (handleConnection lib page peerName messages).run.Dialogue said out)
    (hsends : ∀ e ∈ said, SendSucceeds e) :
    (∃ results, Answers lib page messages results said) ↔
      ∀ message ∈ messages, ¬ SurrogateAction lib message := by
  constructor
  · intro hanswers
    obtain ⟨results, hanswers⟩ := hanswers
    exact hanswers.good
  · intro hgood
    rcases Program.dialogue_run_tryCatch_iff.mp h with ⟨_, hloop, _⟩ | ⟨_, first, second, rfl, hraised, _⟩
    · exact (handleMessages_answers hgood hloop hsends).1
    · cases (handleMessages_answers hgood hraised fun e he => hsends e (List.mem_append_left _ he)).2

/-- Everything goes well, and pages and screenshots are empty. -/
def smoothly : (call : Awaited Unit) → call.Reply
  | .goto _ _ => .ok []
  | .screenshot => .ok []
  | .click _ _ | .type _ | .wheel _ _ | .setViewportSize _ _ | .send _ => .ok ()

def screenshotCommand : Command Unit := { actionType := .screenshot }

def screenshotLib : Stdlib Unit :=
  .sample "\x7b\"action_type\": \"screenshot\", \"timeout\": 30000\x7d" screenshotCommand.entries []

theorem answers_iff_screenshot :
    let messages := [Message.text [], .bytes (screenshotCommand.dump screenshotLib)]
    ∃ said out, (handleConnection screenshotLib true [] messages).run.Dialogue said out ∧
      ∃ results, Answers screenshotLib true messages results said := by
  intro messages
  obtain ⟨said, out, h, hanswers⟩ :=
    Program.exists_dialogue smoothly (handleConnection screenshotLib true [] messages).run
  have hsends : ∀ e ∈ said, SendSucceeds e := by
    intro e he
    obtain ⟨call, reply⟩ := e
    cases call with
    | send response => exact hanswers _ he
    | _ => trivial
  have hload : Command.load screenshotLib (.bytes (screenshotCommand.dump screenshotLib)) =
      .ok screenshotCommand :=
    Command.load_dump ⟨trivial, trivial, trivial, trivial, trivial, trivial, trivial, trivial, 30000, rfl⟩
      (Stdlib.sample_undoes _ _ _ _)
  refine ⟨said, out, h, (answers_iff h hsends).mpr ?_⟩
  simp only [messages, List.forall_mem_cons, List.not_mem_nil, false_implies, implies_true, and_true]
  constructor
  · intro hbad
    obtain ⟨_, _, hloads, _⟩ := hbad
    cases hloads
  · intro hbad
    obtain ⟨e, herror⟩ := Command.load_surrogate hbad
    rw [hload] at herror
    cases herror

def surrogateLib : Stdlib Unit :=
  .sample "\x7b\"action_type\": \"\\ud800\"\x7d" [(Command.actionTypeKey, .str [0xD800])] []

def surrogateFrame : Message := .bytes (encode "\x7b\"action_type\": \"\\ud800\"\x7d".toList)

/-- Neither this message nor the next one is replied to. -/
theorem surrogateFrame_unanswered :
    let messages := [surrogateFrame, .text []]
    (∃ e, Command.load surrogateLib surrogateFrame = .error e) ∧
      ∃ said out, (handleConnection surrogateLib true [] messages).run.Dialogue said out ∧
        (∀ e ∈ said, SendSucceeds e) ∧ said = [] ∧
        ¬ ∃ results, Answers surrogateLib true messages results said := by
  intro messages
  have hjson : surrogateLib.Undoes (fun _ => True) [(Command.actionTypeKey, .str [0xD800])] :=
    Stdlib.sample_undoes _ _ _ _
  have hloads : surrogateFrame.loads surrogateLib = .ok (.dict [(Command.actionTypeKey, .str [0xD800])]) :=
    Message.loads_dumps (hjson (by simp) fun _ _ => trivial)
  have hbad : SurrogateAction surrogateLib surrogateFrame :=
    ⟨_, [0xD800], hloads, rfl, by decide⟩
  obtain ⟨said, out, h, _⟩ :=
    Program.exists_dialogue smoothly (handleConnection surrogateLib true [] messages).run
  obtain rfl := handleConnection_surrogate hbad h
  refine ⟨Command.load_surrogate hbad, [], out, h, by simp, rfl, ?_⟩
  intro hanswers
  obtain ⟨results, hanswers⟩ := hanswers
  exact hanswers.good surrogateFrame List.mem_cons_self hbad

end BrowserServer
end WayPoint.Wright
