import WayPoint.Foundations.Atomic
import WayPoint.Wright.Pairing
import WayPoint.Wright.Replies

/-! A connection from end to end: a client that sends one command after another, and the server that
its messages go to. -/
namespace WayPoint.Wright
open Foundations

variable {φ : Type} {lib : Stdlib φ} {cmd : Command φ}

/-- What has to hold of a command for nothing to be lost on its way: it has the types it is declared
with, JSON keeps it, and both ends can print it. -/
structure Command.Sendable (lib : Stdlib φ) (cmd : Command φ) : Prop where
  wellTyped : cmd.WellTyped lib
  json : lib.Undoes (NumberOrString lib) cmd.entries
  format : ∃ s, cmd.format lib = .ok s
  repr : ∃ text, lib.repr (.dict (cmd.params.filter (fun entry => !entry.2.isNone))) = .ok text

/-- JSON and base64 keep a result. -/
structure Result.Kept (lib : Stdlib φ) (result : Result φ) : Prop where
  json : lib.Undoes BoolOrString result.entries
  image : ∀ image, result.image = some image → lib.b64decode (.str (.ofText (b64encode image))) = .ok image

/-- The fields have their types, and what there is of a message can be printed. -/
structure Result.Plain (result : Result φ) : Prop where
  wellTyped : result.WellTyped
  printable : ∀ s, result.errorMessage = .str s → s.hasSurrogate = false

/-- What arrives of a result: an image without a byte does not. -/
def Result.received (result : Result φ) : Result φ :=
  { result with image := if result.image = some [] then none else result.image }

theorem ActionType.hasSurrogate_name (a : ActionType) : a.name.hasSurrogate = false := by
  cases a <;> exact hasSurrogate_str _

theorem ActionType.hasSurrogate_value (a : ActionType) : a.value.hasSurrogate = false := by
  cases a <;> exact hasSurrogate_str _

private theorem hasSurrogate_flatten {ss : List Str} (h : ∀ s ∈ ss, s.hasSurrogate = false) :
    Str.hasSurrogate ss.flatten = false := by
  induction ss with
  | nil => rfl
  | cons s ss ih =>
    obtain ⟨hs, hss⟩ := List.forall_mem_cons.mp h
    rw [List.flatten_cons, hasSurrogate_append, hs, ih hss]
    rfl

theorem Stdlib.print_eq_ok {s : Str} (h : s.hasSurrogate = false) : lib.print s = .ok () := by
  rw [Stdlib.print, h]
  rfl

theorem Command.params_keys_printable (cmd : Command φ) : ∀ entry ∈ cmd.params, entry.1.hasSurrogate = false := by
  intro entry hentry
  simp only [params, List.mem_cons, List.not_mem_nil, or_false] at hentry
  rcases hentry with rfl | rfl | rfl | rfl | rfl | rfl | rfl | rfl | rfl <;> exact hasSurrogate_str _

/-- The client can print what it is about to send. -/
theorem Command.Sendable.announce (h : cmd.Sendable lib) : TzafonWrightClient.announce lib cmd = .ok () := by
  obtain ⟨s, hs⟩ := h.format
  have hprintable : s.hasSurrogate = false := by
    rw [Command.format] at hs
    obtain ⟨fields, hfields, hs⟩ := bind_eq_ok_iff.mp hs
    obtain rfl := Except.ok.inj hs
    have hflatten : Str.hasSurrogate fields.flatten = false := by
      refine hasSurrogate_flatten fun field hfield => ?_
      obtain ⟨entry, hentry, hrepr⟩ := exists_of_mem_mapM hfields hfield
      obtain ⟨text, _, hfield⟩ := bind_eq_ok_iff.mp hrepr
      obtain rfl := Except.ok.inj hfield
      simp [cmd.params_keys_printable entry hentry]
    simp [ActionType.hasSurrogate_name, ActionType.hasSurrogate_value, hflatten]
  rw [TzafonWrightClient.announce, hs]
  refine Stdlib.print_eq_ok ?_
  rw [hasSurrogate_append, hasSurrogate_str, hprintable]
  rfl

namespace BrowserServer
variable {page : Bool} {said : List (Sigma (@Awaited.Reply φ))}

/-- What the handlers of `handle_connection` make of an exception. -/
def reportError (lib : Stdlib φ) (e : PyException) : Coroutine φ (Result φ) :=
  if e.type.isValueError then do
    lib.print (str "[BrowserServer] Error loading command/action from bytes: " ++ e.text)
    return .failure (str "Action deserialization error: " ++ e.text)
  else do
    lib.print (str "[BrowserServer] Unexpected error handling message: " ++ e.text)
    return .failure (str "Internal server error: " ++ e.text)

/-- A command carried out where the browser is. -/
def execute (lib : Stdlib φ) (page : Bool) (cmd : Command φ) : Coroutine φ (Result φ) :=
  tryCatch (processCommand lib page cmd) (reportError lib)

private theorem parsedAction_printable {s : Str} (h : parsedAction lib cmd = .ok s) : s.hasSurrogate = false := by
  unfold parsedAction at h
  simp only at h
  split at h
  · cases h
    simp [ActionType.hasSurrogate_name]
  · obtain ⟨text, _, h⟩ := bind_eq_ok_iff.mp h
    cases h
    simp [ActionType.hasSurrogate_name]

/-- The message of a sendable command is executed. -/
theorem resultOf_dump (h : cmd.Sendable lib) :
    resultOf lib page (.bytes (cmd.dump lib)) = execute lib page cmd := by
  have hload := Command.load_dump h.wellTyped h.json
  have hparsed : ∃ s, parsedAction lib cmd = .ok s := by
    obtain ⟨text, htext⟩ := h.repr
    unfold parsedAction
    simp only
    split
    · exact ⟨_, rfl⟩
    · rw [htext]
      exact ⟨_, rfl⟩
  obtain ⟨s, hs⟩ := hparsed
  have hprocess : processMessage lib page (.bytes (cmd.dump lib)) = processCommand lib page cmd := by
    rw [processMessage, hload]
    change (liftM (parsedAction lib cmd) >>= fun s => liftM (lib.print s) >>= fun _ =>
      processCommand lib page cmd) = _
    rw [hs]
    change (liftM (lib.print s) >>= fun _ => processCommand lib page cmd) = _
    rw [Stdlib.print_eq_ok (parsedAction_printable hs)]
    rfl
  rw [resultOf, hprocess]
  rfl

private theorem plain_failure {s : Str} (h : s.hasSurrogate = false) : (Result.failure s : Result φ).Plain := by
  refine ⟨⟨⟨false, rfl⟩, Or.inr ⟨s, rfl⟩⟩, fun t ht => ?_⟩
  cases ht
  exact h

theorem plain_success (image : Option Bytes) :
    Result.Plain { success := .bool true, image := image : Result φ } :=
  ⟨⟨⟨true, rfl⟩, Or.inl rfl⟩, fun s hs => by cases hs⟩

private theorem performAction_plain (cmd : Command φ) : Program.Returns Result.Plain (performAction lib cmd) := by
  have hdone : Program.Returns Result.Plain (return .succeeded : Coroutine φ (Result φ)) :=
    Program.returns_pure (plain_success none)
  have hmissing (s : String) : Program.Returns Result.Plain (return .failure (str s) : Coroutine φ (Result φ)) :=
    Program.returns_pure (plain_failure (hasSurrogate_str s))
  unfold performAction
  cases cmd.actionType with
  | goto =>
    dsimp only
    split
    · exact hmissing _
    refine Program.returns_bind fun _ => Program.returns_bind fun _ => ?_
    exact Program.returns_bind fun _ => Program.returns_bind fun _ => hdone
  | click =>
    dsimp only
    split
    · exact hmissing _
    refine Program.returns_bind fun _ => Program.returns_bind fun _ => Program.returns_bind fun _ => ?_
    exact Program.returns_bind fun _ => Program.returns_bind fun _ => Program.returns_bind fun _ => hdone
  | type =>
    dsimp only
    split
    · exact hmissing _
    exact Program.returns_bind fun _ => Program.returns_bind fun _ => hdone
  | scroll =>
    refine Program.returns_bind fun _ => Program.returns_bind fun _ => ?_
    exact Program.returns_bind fun _ => Program.returns_bind fun _ => hdone
  | screenshot => exact Program.returns_bind fun _ => Program.returns_pure (plain_success _)
  | setViewportSize =>
    dsimp only
    split
    · exact hmissing _
    refine Program.returns_bind fun _ => Program.returns_bind fun _ => ?_
    exact Program.returns_bind fun _ => hdone

/-- What is reported of an exception has been printed before. -/
private theorem report_plain {logged told : Str} (h : logged.hasSurrogate = false → told.hasSurrogate = false) :
    Program.Returns Result.Plain (do lib.print logged; return .failure told : Coroutine φ (Result φ)) := by
  intro said result hrun
  obtain ⟨_, ⟨hs, hout⟩ | ⟨_, _, hout, _⟩⟩ := dialogue_print hrun
  · cases hout
    exact plain_failure (h hs)
  · cases hout

/-- Whatever a command leads to, the client can read and print what is said of it. -/
private theorem execute_plain (cmd : Command φ) : Program.Returns Result.Plain (execute lib page cmd) := by
  refine Program.returns_tryCatch ?_ fun e => ?_
  · unfold processCommand
    split
    · exact Program.returns_pure (plain_failure (hasSurrogate_str _))
    refine Program.returns_tryCatch (performAction_plain cmd) fun e => ?_
    split
    · exact report_plain (by simp [ActionType.hasSurrogate_name])
    · exact report_plain (by simp [ActionType.hasSurrogate_name])
  · unfold reportError
    split
    · exact report_plain (by simp)
    · exact report_plain (by simp)

/-- What is sent for the messages of sendable commands is what came of them, one after another. -/
theorem Answers.conducts {cmds : List (Command φ)} {results : List (Result φ)}
    (hcmds : ∀ cmd ∈ cmds, cmd.Sendable lib)
    (h : Answers lib page (cmds.map fun cmd => .bytes (cmd.dump lib)) results said) :
    results.length = cmds.length ∧ (∀ result ∈ results, result.Plain) ∧
      Conducts (fun cmd => (execute lib page cmd).run) (fun e => ¬ Quiet e.1)
        (cmds.zip (results.map .ok)) said := by
  induction cmds generalizing results said with
  | nil =>
    cases h
    exact ⟨rfl, fun _ hresult => (by cases hresult), .nil⟩
  | cons cmd cmds ih =>
    obtain ⟨hcmd, hcmds⟩ := List.forall_mem_cons.mp hcmds
    cases h with
    | cons hresult hquiet hrejected hlater =>
      obtain ⟨hlength, hplain, hconducts⟩ := ih hcmds hlater
      rw [resultOf_dump hcmd] at hresult
      refine ⟨congrArg Nat.succ hlength, ?_, .operation hresult (.idle (fun hquiet => ?_) hconducts)⟩
      · exact List.forall_mem_cons.mpr ⟨execute_plain cmd _ _ hresult, hplain⟩
      · exact hquiet _ rfl

/-- A response on its way to the client. -/
def response? : Sigma (@Awaited.Reply φ) → Option Message
  | ⟨.send response, _⟩ => some (.bytes response)
  | _ => none

private theorem filterMap_response? (h : ∀ e ∈ said, Quiet e.1) : said.filterMap response? = [] := by
  refine List.filterMap_eq_nil_iff.mpr fun e he => ?_
  obtain ⟨call, reply⟩ := e
  cases call with
  | send response => exact absurd rfl (h _ he response)
  | _ => rfl

theorem Answers.responses {messages : List Message} {results : List (Result φ)}
    (h : Answers lib page messages results said) :
    said.filterMap response? = results.map fun result => .bytes (result.dump lib) := by
  induction h with
  | nil => rfl
  | cons hresult hquiet hrejected hlater ih =>
    rw [List.filterMap_append, filterMap_response? hquiet, List.nil_append, List.map_cons, ← ih]
    rfl

end BrowserServer

namespace TzafonWrightClient
variable {ι : Type} {caller : ι} {said : List (Sigma (@ClientAwait.Reply ι))}

/-- Commands sent one after another. -/
def session (lib : Stdlib φ) (caller : ι) : List (Command φ) → Coroutine ι (List (Returned φ))
  | [] => return []
  | cmd :: later => do
    let returned ← sendAction lib true caller cmd
    return returned :: (← session lib caller later)

/-- A message on its way to the server. -/
def sent? : Sigma (@ClientAwait.Reply ι) → Option Message
  | ⟨.send _ message, .ok ()⟩ => some (.bytes message)
  | _ => none

/-- A message that a `recv` has returned. -/
def received? : Sigma (@ClientAwait.Reply ι) → Option Message
  | ⟨.recv _, .ok message⟩ => message
  | ⟨.resume _, .ok message⟩ => some message
  | _ => none

/-- The connection stays open, and nobody else uses it. -/
def Undisturbed (e : Sigma (@ClientAwait.Reply ι)) : Prop := ∃ a, e.2 = .ok a

/-- A call that is not disturbed sends one message, receives one and ends with that. -/
private theorem sending_dialogue {out : Except Raised (Returned φ)}
    (h : (sending lib cmd caller).Dialogue said out) (hsaid : ∀ e ∈ said, Undisturbed e) :
    ∃ message, said.filterMap sent? = [.bytes (cmd.dump lib)] ∧ said.filterMap received? = [message] ∧
      out = settle lib cmd (.ok message) := by
  obtain ⟨sent, afterSend, rfl, hdrain⟩ := Program.dialogue_call_iff.mp h
  obtain ⟨hsent, hafterSend⟩ := List.forall_mem_cons.mp hsaid
  obtain ⟨_, rfl⟩ : ∃ a : Unit, sent = .ok a := hsent
  obtain ⟨drained, afterDrain, rfl, hrecv⟩ := Program.dialogue_call_iff.mp hdrain
  obtain ⟨hdrained, hafterDrain⟩ := List.forall_mem_cons.mp hafterSend
  obtain ⟨_, rfl⟩ : ∃ a : Unit, drained = .ok a := hdrained
  obtain ⟨received, afterRecv, rfl, hsettle⟩ := Program.dialogue_call_iff.mp hrecv
  obtain ⟨hreceived, hafterRecv⟩ := List.forall_mem_cons.mp hafterDrain
  obtain ⟨answer, rfl⟩ : ∃ a : Option Message, received = .ok a := hreceived
  cases answer with
  | some message =>
    obtain ⟨rfl, rfl⟩ := Program.dialogue_done_iff.mp hsettle
    exact ⟨message, rfl, rfl, rfl⟩
  | none =>
    obtain ⟨resumed, rest, rfl, hdone⟩ := Program.dialogue_call_iff.mp hsettle
    obtain ⟨message, rfl⟩ : ∃ a : Message, resumed = .ok a := (List.forall_mem_cons.mp hafterRecv).1
    obtain ⟨rfl, rfl⟩ := Program.dialogue_done_iff.mp hdone
    exact ⟨message, rfl, rfl, rfl⟩

private theorem format_plain {result : Result φ} (h : result.Plain) :
    ∃ s, result.format lib = .ok s ∧ s.hasSurrogate = false := by
  obtain ⟨success, image, errorMessage⟩ := result
  obtain ⟨⟨_, herror⟩, hprintable⟩ := h
  have hstatus (b : Bool) (a a' : String) : Str.hasSurrogate (if b then str a else str a') = false := by
    cases b <;> exact hasSurrogate_str _
  have hformatted (errMsg : Str) (h : errMsg.hasSurrogate = false) : Str.hasSurrogate
      (str "Result(status=" ++ (if lib.truthy success then str "Success" else str "Error") ++
        str ", image_status=" ++
        (if (image.getD []).isEmpty then str "[No Image]" else str "[Image Present]") ++ errMsg ++ str ")") =
      false := by
    simp only [hasSurrogate_append, hasSurrogate_str, h, hstatus, Bool.or_self]
  rcases herror with hnone | ⟨s, hs⟩
  · obtain rfl : errorMessage = .none := hnone
    exact ⟨_, rfl, hformatted [] rfl⟩
  · obtain rfl : errorMessage = .str s := hs
    cases s with
    | nil => exact ⟨_, rfl, hformatted [] rfl⟩
    | cons c s =>
      refine ⟨_, rfl, hformatted (str ", Error: " ++ (c :: s)) ?_⟩
      rw [hasSurrogate_append, hasSurrogate_str, hprintable _ rfl]
      rfl

/-- The client accepts what the server has dumped. -/
theorem accept_dump {result : Result φ} (hplain : result.Plain) (hkept : result.Kept lib) :
    accept lib (.bytes (result.dump lib)) = .ok (.loaded result.received) := by
  obtain ⟨s, hformat, hs⟩ : ∃ s, result.received.format lib = .ok s ∧ s.hasSurrogate = false :=
    format_plain ⟨⟨hplain.wellTyped.success, hplain.wellTyped.errorMessage⟩, hplain.printable⟩
  have hload : Result.load lib (result.dump lib) = .ok result.received :=
    Result.load_dump hplain.wellTyped hkept.json hkept.image
  refine bind_eq_ok_iff.mpr ⟨result.received, hload, bind_eq_ok_iff.mpr ⟨s, ?_, ?_⟩⟩
  · rw [hformat]
    rfl
  · refine bind_eq_ok_iff.mpr ⟨(), Stdlib.print_eq_ok ?_, rfl⟩
    rw [hasSurrogate_append, hasSurrogate_str, hs]
    rfl

/-- A session sends its commands in their order and receives as many messages. -/
theorem session_dialogue {cmds : List (Command φ)} {returned : List (Returned φ)}
    (hcmds : ∀ cmd ∈ cmds, cmd.Sendable lib) (h : (session lib caller cmds).run.Dialogue said (.ok returned))
    (hsaid : ∀ e ∈ said, Undisturbed e) :
    said.filterMap sent? = cmds.map (fun cmd => .bytes (cmd.dump lib)) ∧
      List.Forall₂ (fun outcome message => ∃ cmd, settle lib cmd (.ok message) = .ok outcome)
        returned (said.filterMap received?) ∧
      returned.length = cmds.length := by
  induction cmds generalizing said returned with
  | nil =>
    obtain ⟨rfl, hout⟩ := Program.dialogue_run_pure_iff.mp h
    cases hout
    exact ⟨rfl, .nil, rfl⟩
  | cons cmd later ih =>
    obtain ⟨hcmd, hlater⟩ := List.forall_mem_cons.mp hcmds
    rcases Program.dialogue_run_bind_iff.mp h with ⟨_, _, hout⟩ | ⟨outcome, first, rest, rfl, hfirst, hrest⟩
    · cases hout
    rcases Program.dialogue_run_bind_iff.mp hrest with ⟨_, _, hout⟩ | ⟨others, second, _, rfl, hsecond, hpure⟩
    · cases hout
    obtain ⟨rfl, hout⟩ := Program.dialogue_run_pure_iff.mp hpure
    cases hout
    rw [sendAction_run_ok hcmd.announce] at hfirst
    obtain ⟨message, hsent, hreceived, hsettle⟩ :=
      sending_dialogue hfirst fun e he => hsaid e (List.mem_append_left _ he)
    obtain ⟨hsents, hreceiveds, hlength⟩ := ih hlater hsecond fun e he =>
      hsaid e (by simp [he])
    rw [List.append_nil, List.filterMap_append, List.filterMap_append, hsent, hsents, hreceived]
    exact ⟨rfl, .cons ⟨cmd, hsettle.symm⟩ hreceiveds, congrArg Nat.succ hlength⟩

/-- What has been received of plain results that are kept. -/
theorem returned_eq {results : List (Result φ)} {returned : List (Returned φ)}
    (h : List.Forall₂ (fun outcome message => ∃ cmd, settle lib cmd (.ok message) = .ok outcome) returned
      (results.map fun result => .bytes (result.dump lib)))
    (hresults : ∀ result ∈ results, result.Plain ∧ result.Kept lib) :
    returned = results.map fun result => .loaded result.received := by
  induction results generalizing returned with
  | nil =>
    cases h
    rfl
  | cons result results ih =>
    obtain ⟨⟨hplain, hkept⟩, hresults⟩ := List.forall_mem_cons.mp hresults
    cases h with
    | cons hsettle hrest =>
      obtain ⟨cmd, hsettle⟩ := hsettle
      rw [settle_accepted (accept_dump hplain hkept)] at hsettle
      cases hsettle
      rw [ih hrest hresults]
      rfl

end TzafonWrightClient
end WayPoint.Wright
