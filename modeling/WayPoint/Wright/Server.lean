import WayPoint.Foundations.Exceptions
import WayPoint.Wright.Models

/-! The server's side of one connection (server.py). Prints of fixed text, lengths and addresses cannot
fail and are left out, as is what is printed to the standard error. -/
namespace WayPoint.Wright
open Foundations

variable {φ : Type}

/-- What is awaited: calls of Playwright, and the sending of a response. -/
inductive Awaited (φ : Type) where
  | goto (url timeout : Value φ)
  | click (x y : φ)
  | type (text : Value φ)
  | wheel (deltaX deltaY : Value φ)
  | screenshot
  | setViewportSize (width height : Int)
  | send (response : Bytes)

/-- What a call returns. Of the response to a navigation only its text is used. -/
abbrev Awaited.Answer : Awaited φ → Type
  | .goto _ _ => Str
  | .screenshot => Bytes
  | .click _ _ | .type _ | .wheel _ _ | .setViewportSize _ _ | .send _ => Unit

/-- Each call returns or raises. -/
abbrev Awaited.Reply (call : Awaited φ) : Type := Except PyException call.Answer

abbrev Coroutine (φ α : Type) := ExceptT PyException (Program (@Awaited.Reply φ)) α

def await (call : Awaited φ) : Coroutine φ call.Answer := ExceptT.mk (Program.perform call)

namespace BrowserServer
variable (lib : Stdlib φ)

/-- The `try` block of `_process_command`. -/
def performAction (cmd : Command φ) : Coroutine φ (Result φ) :=
  match cmd.actionType with
  | .goto => do
    if cmd.url.isNone then return .failure (str "Missing 'url' for goto action")
    lib.print (str "[BrowserServer] Playwright navigating to: " ++ (← raising (lib.format cmd.url)))
    let response ← await (.goto cmd.url cmd.timeout)
    lib.print (str "[BrowserServer] Playwright navigation response: " ++ response)
    return .succeeded
  | .click => do
    if cmd.x.isNone || cmd.y.isNone then return .failure (str "Missing x or y for click action")
    lib.print (str "[BrowserServer] Playwright clicking at: (" ++ (← raising (lib.format cmd.x)) ++
      str ", " ++ (← raising (lib.format cmd.y)) ++ str ")")
    await (.click (← raising (lib.toFloat cmd.x)) (← raising (lib.toFloat cmd.y)))
    return .succeeded
  | .type => do
    if cmd.text.isNone then return .failure (str "Missing text for type action")
    let _ ← raising (lib.len cmd.text)
    await (.type cmd.text)
    return .succeeded
  | .scroll => do
    lib.print (str "[BrowserServer] Playwright scrolling by: dx=" ++ (← raising (lib.format cmd.deltaX)) ++
      str ", dy=" ++ (← raising (lib.format cmd.deltaY)))
    await (.wheel cmd.deltaX cmd.deltaY)
    return .succeeded
  | .screenshot => do
    let screenshotBytes ← await .screenshot
    return { success := .bool true, image := some screenshotBytes }
  | .setViewportSize => do
    if cmd.width.isNone || cmd.height.isNone then
      return .failure (str "Missing width or height for set_viewport_size action")
    await (.setViewportSize (← raising (lib.toInt cmd.width)) (← raising (lib.toInt cmd.height)))
    return .succeeded

/-- `page` says whether there is one. The `else` of the chain of action types is never taken. -/
def processCommand (page : Bool) (cmd : Command φ) : Coroutine φ (Result φ) :=
  if !page then return .failure (str "Playwright page is not initialized.")
  else tryCatch (performAction lib cmd) fun e =>
    if e.type = .playwrightError then do
      lib.print (str "[BrowserServer] Playwright Error processing action " ++ cmd.actionType.name ++
        str ": " ++ e.text)
      return .failure (str "Playwright Error: " ++ e.text)
    else do
      lib.print (str "[BrowserServer] Error processing action " ++ cmd.actionType.name ++ str ": " ++ e.text)
      return .failure (str "Server execution error: " ++ e.text)

/-- What is logged of a command that was loaded. -/
def parsedAction (cmd : Command φ) : Except PyException Str :=
  let paramsDict := cmd.params.filter (fun entry => !entry.2.isNone)
  let logMessage := str "[BrowserServer] Parsed action: " ++ cmd.actionType.name
  if paramsDict.isEmpty then .ok logMessage
  else do return logMessage ++ str " with params: " ++ .ofText (← raising (lib.repr (.dict paramsDict)))

/-- The first `try` block of `handle_connection`. -/
def processMessage (page : Bool) (message : Message) : Coroutine φ (Result φ) := do
  let cmd ← Command.load lib message
  lib.print (← parsedAction lib cmd)
  processCommand lib page cmd

/-- The same block with its handlers: the result that is sent for a message. -/
def resultOf (page : Bool) (message : Message) : Coroutine φ (Result φ) :=
  tryCatch (processMessage lib page message) fun e =>
    if e.type.isValueError then do
      lib.print (str "[BrowserServer] Error loading command/action from bytes: " ++ e.text)
      return .failure (str "Action deserialization error: " ++ e.text)
    else do
      lib.print (str "[BrowserServer] Unexpected error handling message: " ++ e.text)
      return .failure (str "Internal server error: " ++ e.text)

/-- The second `try` block: whether the loop goes on. -/
def respond (peerName : Text) (result : Result φ) : Coroutine φ Bool :=
  tryCatch (do await (.send (result.dump lib)); return true) fun e => do
    lib.print (str "[BrowserServer] Error sending response to " ++ .ofText peerName ++ str ": " ++ e.text)
    return false

/-- The `async for` over the messages. -/
def handleMessages (page : Bool) (peerName : Text) : List Message → Coroutine φ Unit
  | [] => return ()
  | message :: later => do
    let result ← resultOf lib page message
    if ← respond lib peerName result then handleMessages page peerName later

def handleConnection (page : Bool) (peerName : Text) (messages : List Message) : Coroutine φ Unit :=
  tryCatch (handleMessages lib page peerName messages) fun e =>
    lib.print (str "[BrowserServer] An error occurred in the connection handler for " ++ .ofText peerName ++
      str ": " ++ e.text)

end BrowserServer
end WayPoint.Wright
