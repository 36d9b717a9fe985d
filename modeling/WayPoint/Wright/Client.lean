import WayPoint.Foundations.Pipeline
import WayPoint.Foundations.Turns
import WayPoint.Wright.Models

/-! The client's side of one open connection (client.py): calls of `send_action` whose awaits interleave,
any of which can be cancelled. -/
namespace WayPoint.Wright
open Foundations

/-- What ends a coroutine early: the cancellation of its task, which is no `Exception`, or an exception. -/
inductive Raised where
  | cancelled
  | exception (e : PyException)
  deriving DecidableEq, Repr

/-- What a call of `send_action` does with the connection. A message is handed over before `send` returns,
and a `recv` returns at once or waits and is resumed. The caller is there for the proofs only. -/
inductive ClientAwait (ι : Type) where
  | send (caller : ι) (message : Bytes)
  | drain (caller : ι)
  | recv (caller : ι)
  | resume (caller : ι)

/-- What a call returns; `none` where it waits. -/
abbrev ClientAwait.Answer {ι : Type} : ClientAwait ι → Type
  | .send _ _ | .drain _ => Unit
  | .recv _ => Option Message
  | .resume _ => Message

abbrev ClientAwait.Reply {ι : Type} (call : ClientAwait ι) : Type := Except Raised call.Answer

/-- What `send_action` returns: the result it loaded, or one of its own making. -/
inductive Returned (φ : Type) where
  | loaded (result : Result φ)
  | made (result : Result φ)

namespace TzafonWrightClient
variable {ι φ : Type}

abbrev Coroutine (ι α : Type) := ExceptT Raised (Program (@ClientAwait.Reply ι)) α

def await (call : ClientAwait ι) : Coroutine ι call.Answer := ExceptT.mk (Program.perform call)

def sync {α : Type} (r : Except PyException α) : Except Raised α := r.mapError .exception

def recv (caller : ι) : Coroutine ι Message := do
  match ← await (.recv caller) with
  | some message => return message
  | none => await (.resume caller)

variable (lib : Stdlib φ)

def announce (cmd : Command φ) : Except PyException Unit := do
  lib.print (str "[Client] Sending command: " ++ (← raising (cmd.format lib)))

/-- The rest of the `try` block after `recv`. -/
def accept (responseMessage : Message) : Except PyException (Returned φ) := do
  let responseBytes := match responseMessage with
    | .bytes frame => frame
    | .text frame => encode frame
  let resultObj ← Result.load lib responseBytes
  lib.print (str "[Client] Parsed result: " ++ (← raising (resultObj.format lib)))
  return .loaded resultObj

/-- What the handlers make of an exception, as long as the connection is not closed. -/
def report (cmd : Command φ) (e : PyException) : Except PyException (Returned φ) := do
  if e.type = .typeError ∨ e.type.isValueError then
    lib.print (str "[Client] Error processing data for action " ++ (← raising (cmd.format lib)) ++
      str ": " ++ e.text)
    return .made (.failure (str "Data Error: " ++ e.text))
  else
    lib.print (str "[Client] Unexpected error processing action " ++ (← raising (cmd.format lib)) ++
      str ": " ++ e.text)
    return .made (.failure (str "Unexpected client error: " ++ e.text))

/-- A cancellation is not handled. -/
def handle (cmd : Command φ) : Raised → Coroutine ι (Returned φ)
  | .cancelled => throw .cancelled
  | .exception e => sync (report lib cmd e)

/-- The `try` block. -/
def exchange (caller : ι) (cmd : Command φ) : Coroutine ι (Returned φ) := do
  let commandBytes := cmd.dump lib
  sync (announce lib cmd)
  await (.send caller commandBytes)
  await (.drain caller)
  let responseMessage ← recv caller
  sync (accept lib responseMessage)

def sendAction (isConnected : Bool) (caller : ι) (cmd : Command φ) : Coroutine ι (Returned φ) :=
  if !isConnected then return .made (.failure (str "Client not connected."))
  else tryCatch (exchange lib caller cmd) (handle lib cmd)

/-- The connection, and whose `recv` is pending on it. -/
structure Connection (ι φ : Type) extends Pipeline ι Bytes (Result φ) where
  receiver : Option ι := none

def concurrencyError : PyException :=
  ⟨.other, str "cannot call recv while another coroutine is already running recv or recv_streaming"⟩

/-- A `recv` takes the oldest message, waits for one, or fails while another one is waiting; while it
waits it can be cancelled, and takes nothing then. -/
def serves : Server (@ClientAwait.Reply ι) (Connection ι φ)
  | .send caller message, s, reply, s' =>
    reply = .ok () ∧ s' = { s with toPipeline := s.submit caller message } ∨
      reply = .error .cancelled ∧ s' = s
  | .drain _, s, reply, s' => (reply = .ok () ∨ reply = .error .cancelled) ∧ s' = s
  | .recv caller, s, reply, s' =>
    match s.receiver, s.take with
    | some _, _ => reply = .error (.exception concurrencyError) ∧ s' = s
    | none, some (result, later) =>
      reply = .ok (some (.bytes (result.dump lib))) ∧ s' = { s with toPipeline := later }
    | none, none => reply = .ok none ∧ s' = { s with receiver := some caller }
  | .resume _, s, reply, s' =>
    (∃ result later, s.take = some (result, later) ∧ reply = .ok (.bytes (result.dump lib)) ∧
      s' = { toPipeline := later, receiver := none }) ∨
      reply = .error .cancelled ∧ s' = { s with receiver := none }

/-- What a `recv` finds. -/
theorem serves_recv {lib : Stdlib φ} {caller : ι} {s s' : Connection ι φ}
    {reply : (ClientAwait.recv caller).Reply} (h : serves lib (.recv caller) s reply s') :
    (∃ waiting, s.receiver = some waiting ∧ reply = .error (.exception concurrencyError) ∧ s' = s) ∨
      (∃ result later, s.receiver = none ∧ s.take = some (result, later) ∧
        reply = .ok (some (.bytes (result.dump lib))) ∧ s' = { s with toPipeline := later }) ∨
      s.receiver = none ∧ reply = .ok none ∧ s' = { s with receiver := some caller } := by
  simp only [serves] at h
  split at h
  · next waiting hreceiver => exact Or.inl ⟨waiting, hreceiver, h⟩
  · next result later hreceiver htake => exact Or.inr (Or.inl ⟨result, later, hreceiver, htake, h⟩)
  · next hreceiver _ => exact Or.inr (Or.inr ⟨hreceiver, h⟩)

/-- Any number of calls on one open connection, and a server that answers every message it receives
with one result. -/
def client [DecidableEq ι] (cmd : ι → Command φ) :
    System ι (@ClientAwait.Reply ι) (Connection ι φ) (Except Raised (Returned φ)) where
  program caller := (sendAction lib true caller (cmd caller)).run
  serves := serves lib
  environment s s' := ∃ result, s' = { s with toPipeline := s.answer result }

end TzafonWrightClient
end WayPoint.Wright
