import WayPoint.Container.BrowserSession
import WayPoint.Container.HeartBeat
import WayPoint.Foundations.Interleaving

/-! The tasks of a browser container (browser/main.rs and what it starts), which share a cancellation token,
among all other clients of the manager. -/
namespace WayPoint.Container
open Foundations Manager Program System
open Gateway (Text Exchange)

/-- What a `select!` waits for besides the token. -/
inductive Selected where
  | exited
  | accepted
  | elapsed

/-- Of an accepted connection only whether there is one. -/
abbrev Selected.Output : Selected → Type
  | .accepted => Bool
  | .exited | .elapsed => Unit

/-- What the tasks of a binary wait for. -/
inductive Wait (τ : Type) where
  | spawn (task : τ)
  /-- The first turn of a task. -/
  | spawned (task : τ)
  | select (event : Selected)
  | cancelled
  | cancel
  | kill
  /-- `start_http_proxy_connection`, whose error is only logged. -/
  | connection
  | hostname
  | launch
  | announced
  | bind
  | channel
  | send
  | locked (c : Section)
  | receive
  | update (request : InstanceDescription)
  | post (request : InstanceDescription)
  | readStats
  /-- Further rounds of a loop are not followed. -/
  | further

/-- A `select!` that replies `none` has found the token cancelled. -/
abbrev Wait.Reply {τ : Type} : Wait τ → Type
  | .select event => Option event.Output
  | .connection | .launch | .bind | .channel => Bool
  | .hostname => Option String
  | .announced => Option Text
  | .send | .receive => Except Status Unit
  | .locked c => c.Reply
  | .update _ | .post _ => Except Status Bool
  | .readStats => Option (Option SystemMetrics)
  | .spawn _ | .spawned _ | .cancelled | .cancel | .kill | .further => Unit

/-- What was asked and answered, the first call first. -/
abbrev Told (τ : Type) := List (Sigma (@Wait.Reply τ))

/-- What `main`, or the task of the metrics, fails with. -/
inductive TaskError where
  | noIpAddress
  | notLaunched
  | noAnnouncement
  | noAddress
  | notBound
  | noChannel
  | alreadyExists
  | notAdded (status : Status)
  | noStats
  deriving DecidableEq

variable {τ : Type}

abbrev Async (τ α : Type) := ExceptT TaskError (Program (@Wait.Reply τ)) α

namespace Async

def await (c : Wait τ) : Async τ c.Reply := ExceptT.lift (perform c)

def require (e : TaskError) (succeeded : Bool) : Async τ Unit := if succeeded then return () else throw e

def orThrow {α : Type} (e : TaskError) : Option α → Async τ α
  | some a => return a
  | none => throw e

/-- A spawned task. -/
def spawned (task : τ) (body : Async τ Unit) : Async τ Unit := do
  await (.spawned task)
  body

/-- What watches a child process. -/
def watch : Async τ Unit := do
  match ← await (.select .exited) with
  | none => await .kill
  | some _ => await .cancel

/-- The loop of `start_simple_http_gateway_with_proxy_config`, for a number of connections. -/
def gateway : Nat → Async τ Unit
  | 0 => await .further
  | rounds + 1 => do
    match ← await (.select .accepted) with
    | some true =>
      let _ ← await .connection
      gateway rounds
    | _ => await .cancel

/-- The `select!` at the end of a round. -/
def nextRound (left rest : Async τ Unit) : Async τ Unit := do
  match ← await (.select .elapsed) with
  | none => left
  | some _ => rest

/-- The loop of `start_heart_beat`, for a number of heartbeats. -/
def heartBeats (instanceId : InstanceId) : Nat → Nat → Async τ Unit
  | 0, _ => await .further
  | rounds + 1, retries => do
    match ← await (.update (heartBeat instanceId)) with
    | .ok true => nextRound (await .cancel) (heartBeats instanceId rounds 0)
    | .ok false => await .cancel
    | .error _ =>
      if retries = maxRetries then await .cancel
      else nextRound (await .cancel) (heartBeats instanceId rounds (retries + 1))

/-- The loop of `start_system_metrics_loop`, for a number of rounds. -/
def metrics (instanceId : InstanceId) : Nat → Async τ Unit
  | 0 => await .further
  | rounds + 1 => do
    match ← await .readStats with
    | none => throw .noStats
    | some none => nextRound (return ()) (metrics instanceId rounds)
    | some (some stats) =>
      let _ ← await (.post { instanceId := some instanceId, systemMetrics := some stats })
      nextRound (return ()) (metrics instanceId rounds)

/-- A handler of the manager, run for a request from here. -/
def remotely {α : Type} : Handler α → Program (@Wait.Reply τ) α
  | .done a => .done a
  | .call c next => .call (.locked c) fun r => remotely (next r)

/-- A request whose handler has several sections; it or its response can be lost. -/
def exchange {α : Type} (handler : Handler (Except Status α)) : Async τ (Except Status α) := do
  match ← await .send with
  | .error status => return .error status
  | .ok _ =>
    let response ← ExceptT.lift (remotely handler)
    match ← await .receive with
    | .error status => return .error status
    | .ok _ => return response

def initializeHealthLoop (instanceId : InstanceId) (instanceType : InstanceType) (services : Option Services) :
    Async τ Unit := do
  match ← exchange (tryAddInstance
    { instanceId := some instanceId, instanceType := some instanceType.toI32, services }) with
  | .ok true => return ()
  | .ok false => throw .alreadyExists
  | .error status => throw (.notAdded status)

end Async

/-- The tasks of a browser container. -/
inductive BrowserTask where
  | main
  | chrome
  | tzafonwright
  | gateway
  | heartBeat
  | metrics
  deriving DecidableEq

def createServicesFromArgs (ipAddress : String) (cdpPort tzafonwrightPort : Option UInt16) : Services where
  chromeDebugPortService := cdpPort.map fun port => ipAddress ++ ":" ++ toString port
  tzafonwrightService := tzafonwrightPort.map fun port => ipAddress ++ ":" ++ toString port

/-- A container: its arguments, its id, the parser for Chrome's address, and how many rounds of its loops are
followed. -/
structure BrowserContainer where
  ipAddress : Option String
  cdpPort : UInt16
  tzafonwrightPort : UInt16
  instanceId : InstanceId
  parse : Text → Option Uri
  rounds : BrowserTask → Nat

namespace BrowserContainer
open Async

/-- `start_chrome`, which spawns its watcher before it has the address. -/
def startChrome : Async BrowserTask Text := do
  require .notLaunched (← await .launch)
  await (.spawn .chrome)
  let line ← orThrow .noAnnouncement (← await .announced)
  orThrow .noAnnouncement (parseUrlFromLine line)

def startTzafonwright : Async BrowserTask Unit := do
  require .notLaunched (← await .launch)
  await (.spawn .tzafonwright)

def startGateway : Async BrowserTask Unit := do
  require .notBound (← await .bind)
  await (.spawn .gateway)

variable (container : BrowserContainer)

def getIpAddress : Async BrowserTask String :=
  match container.ipAddress with
  | some ipAddress => return ipAddress
  | none => do orThrow .noIpAddress (← await .hostname)

def instanceManagerConnection (services : Services) : Async BrowserTask Unit := do
  require .noChannel (← await .channel)
  initializeHealthLoop container.instanceId .chromeBrowser (some services)
  await (.spawn .heartBeat)
  await (.spawn .metrics)

def main : Async BrowserTask Unit := do
  let ipAddress ← container.getIpAddress
  let wsPath ← startChrome
  startTzafonwright
  let _ ← orThrow .noAddress (container.parse wsPath)
  startGateway
  container.instanceManagerConnection
    (createServicesFromArgs ipAddress (some container.cdpPort) (some container.tzafonwrightPort))
  await .cancelled

def task : BrowserTask → Async BrowserTask Unit
  | .main => container.main
  | .chrome => spawned .chrome watch
  | .tzafonwright => spawned .tzafonwright watch
  | .gateway => spawned .gateway (Async.gateway (container.rounds .gateway))
  | .heartBeat => spawned .heartBeat (heartBeats container.instanceId (container.rounds .heartBeat) 0)
  | .metrics => spawned .metrics (Async.metrics container.instanceId (container.rounds .metrics))

end BrowserContainer

/-- The token, which tasks have been spawned, and the store of the manager. -/
structure Host (τ : Type) where
  cancelled : Bool := false
  spawned : τ → Bool := fun _ => false
  manager : InnerService

/-- A `select!` may take the other branch also when the token is cancelled. -/
def hostServes [DecidableEq τ] : Server (@Wait.Reply τ) (Host τ)
  | .spawn task, s, _, s' => s' = { s with spawned := Function.update s.spawned task true }
  | .spawned task, s, _, s' => s.spawned task = true ∧ s' = s
  | .select _, s, r, s' => (r = none → s.cancelled = true) ∧ s' = s
  | .cancelled, s, _, s' => s.cancelled = true ∧ s' = s
  | .cancel, s, _, s' => s' = { s with cancelled := true }
  | .locked c, s, r, s' => ∃ m, serves c s.manager r m ∧ s' = { s with manager := m }
  | .update request, s, r, s' => ∃ m, Exchange (tryUpdateInstanceDescription request) s.manager r m ∧
      s' = { s with manager := m }
  | .post request, s, r, s' => ∃ m, Exchange (postInstanceDescription request) s.manager r m ∧
      s' = { s with manager := m }
  | .further, _, _, _ => False
  | .kill, s, _, s' | .connection, s, _, s' | .hostname, s, _, s' | .launch, s, _, s' | .announced, s, _, s'
  | .bind, s, _, s' | .channel, s, _, s' | .send, s, _, s' | .receive, s, _, s' | .readStats, s, _, s' => s' = s

/-- The container among all other clients of the manager, none of which registers its id. -/
def BrowserContainer.system (container : BrowserContainer) :
    System BrowserTask (@Wait.Reply BrowserTask) (Host BrowserTask) (Except TaskError Unit) where
  program t := (container.task t).run
  serves := hostServes
  environment s s' := ∃ c r m, (∀ t, c ≠ .insertBlank container.instanceId t) ∧ serves c s.manager r m ∧
    s' = { s with manager := m }

end WayPoint.Container
