import WayPoint.Gateway.ProxyConfig
import WayPoint.Manager.Handlers

/-! One connection through the ephemeral browser proxy: claim a browser at the manager, connect to
it, copy, and kill it (ephemeral_browser_proxy.rs, start_http_proxy_connection of http_proxy.rs). -/
namespace WayPoint.Gateway
open Foundations Manager

/-- The steps of a connection that leave the process, and readings of the local clock. -/
inductive Remote where
  | getAllInstances (query : AllInstancesQuery)
  | getInstance (instanceId : InstanceId)
  | tryUpdateInstanceDescription (request : InstanceDescription)
  | now
  | connect (serverAddr : Text)
  | writeAll (text : Text)
  | copyBidirectional
  deriving DecidableEq

/-- Socket operations only say whether they succeeded. -/
abbrev Remote.Reply : Remote → Type
  | .getAllInstances _ => Except Status (List InstanceId)
  | .getInstance _ => Except Status InstanceDescription
  | .tryUpdateInstanceDescription _ => Except Status Bool
  | .now => TimestampMs
  | .connect _ => Bool
  | .writeAll _ => Bool
  | .copyBidirectional => Bool

/-- What a client sees of one gRPC call: the manager's response, or an error where the response
or already the request was lost. -/
inductive Exchange {β : Type} (handler : Handler (Except Status β)) (s : InnerService) :
    Except Status β → InnerService → Prop where
  | delivered {r : Except Status β} {s' : InnerService} (run : Program.Runs serves s handler r s') :
      Exchange handler s r s'
  | lost {r : Except Status β} {s' : InnerService} (run : Program.Runs serves s handler r s')
      (status : Status) : Exchange handler s (.error status) s'
  | unsent (status : Status) : Exchange handler s (.error status) s

/-- The manager behind an unreliable network; everything else leaves its store alone. -/
def delivers : Server Remote.Reply InnerService
  | .getAllInstances query, s, r, s' => Exchange (Except.ok <$> locked (.getAll query)) s r s'
  | .getInstance instanceId, s, r, s' => Exchange (locked (.get instanceId)) s r s'
  | .tryUpdateInstanceDescription request, s, r, s' =>
    Exchange (Manager.tryUpdateInstanceDescription request) s r s'
  | .now, s, _, s' => s' = s
  | .connect _, s, _, s' => s' = s
  | .writeAll _, s, _, s' => s' = s
  | .copyBidirectional, s, _, s' => s' = s

/-- A network that loses nothing, at one clock reading. -/
def Remote.execute (time : TimestampMs) : (c : Remote) → InnerService → c.Reply × InnerService
  | .getAllInstances query, s =>
    (Except.ok <$> locked (.getAll query)).eval (Section.execute (Stream'.const time)) s
  | .getInstance instanceId, s => (locked (.get instanceId)).eval (Section.execute (Stream'.const time)) s
  | .tryUpdateInstanceDescription request, s =>
    (Manager.tryUpdateInstanceDescription request).eval (Section.execute (Stream'.const time)) s
  | .now, s => (time, s)
  | .connect _, s => (true, s)
  | .writeAll _, s => (true, s)
  | .copyBidirectional, s => (true, s)

theorem delivers_execute (time : TimestampMs) (c : Remote) (s : InnerService) :
    delivers c s (c.execute time s).1 (c.execute time s).2 := by
  have hserve := serves_execute (Stream'.const time)
  cases c with
  | getAllInstances query => exact .delivered (Program.runs_eval hserve _ s)
  | getInstance id => exact .delivered (Program.runs_eval hserve _ s)
  | tryUpdateInstanceDescription request => exact .delivered (Program.runs_eval hserve _ s)
  | now | connect | writeAll | copyBidirectional => rfl

/-- Code of the proxy: it makes remote calls and may fail. -/
abbrev Task := ExceptT Error (Program Remote.Reply)

def remote (c : Remote) : Task c.Reply := ExceptT.lift (Program.perform c)

/-- `.map_err(|_| Error::IoError(message))?` on a socket operation. -/
def orIoError (message : String) (succeeded : Bool) : Task Unit :=
  if succeeded then return () else throw (.ioError message)

inductive ProxyType where
  | CDP
  | TZAFONWRIGHT
  deriving DecidableEq

structure ChromeWarmpoolProxyConfig where
  instanceId : InstanceId
  proxyType : ProxyType

namespace ChromeWarmpoolProxyConfig

/-- The pattern on a description read in `get_instance`; the guard on its heartbeat follows. -/
def unclaimedHeartbeat (d : InstanceDescription) : Option TimestampMs :=
  match d with
  | { healthCheck := some { timestampMs := some heartbeat }, parent := none,
      killInstanceRequest := none, .. } => some heartbeat
  | _ => none

def claimRequest (config : ChromeWarmpoolProxyConfig) (instance_ : InstanceId) : InstanceDescription :=
  { instanceId := some instance_, parent := some { instanceId := some config.instanceId } }

/-- The loop of `get_instance` over the listed ids. -/
def claimFirst (config : ChromeWarmpoolProxyConfig) : List InstanceId → Task InstanceDescription
  | [] => throw (.ioError "No available instance found")
  | instance_ :: rest => do
    match ← remote (.getInstance instance_) with
    | .error _ => claimFirst config rest
    | .ok instanceDescription =>
      match unclaimedHeartbeat instanceDescription with
      | none => claimFirst config rest
      | some heartbeat =>
        let now ← remote .now
        if heartbeat.timestampMs > now.timestampMs - 1000 * 5 then
          match ← remote (.tryUpdateInstanceDescription (config.claimRequest instance_)) with
          | .ok true => return instanceDescription
          | _ => claimFirst config rest
        else
          claimFirst config rest

def getInstance (config : ChromeWarmpoolProxyConfig) : Task InstanceDescription := do
  match ← remote (.getAllInstances { instanceType := InstanceType.chromeBrowser.toI32 }) with
  | .error _ => throw (.ioError "Failed to get instances")
  | .ok instanceIds => claimFirst config instanceIds

def serviceAddress (config : ChromeWarmpoolProxyConfig) (d : InstanceDescription) : Option String :=
  d.services.bind fun service =>
    match config.proxyType with
    | .CDP => service.chromeDebugPortService
    | .TZAFONWRIGHT => service.tzafonwrightService

def getProxyConfig (config : ChromeWarmpoolProxyConfig) (d : InstanceDescription) :
    Task HttpProxyConfig :=
  match config.serviceAddress d with
  | none => throw (.ioError "Instance has no address")
  | some address => return ((HttpProxyConfig.new address.toList).withPathOverride
      (.replace ['/'])).withHeaderOverride "Host".toList address.toList

/-- What is left of an `HttpProxyInstance` once its sockets are taken as connected: the request to
send, and the manager's instance id. -/
structure HttpProxyInstance where
  request : Request
  instanceId : String

def newConnection (config : ChromeWarmpoolProxyConfig) (request : Request) :
    Task HttpProxyInstance := do
  let instanceDescription ← config.getInstance
  match instanceDescription.instanceId with
  | none => throw (.ioError "Instance has no id")
  | some instanceId =>
    let proxyConfig ← config.getProxyConfig instanceDescription
    let request := proxyConfig.modifyRequest (FiniteMap.listing proxyConfig.overideHeaders) request
    orIoError "Failed to connect to instance" (← remote (.connect proxyConfig.serverAddr))
    return { request, instanceId := instanceId.instanceId }

end ChromeWarmpoolProxyConfig

/-- `Request::write_to_stream`: one `write_all` for each slice. -/
def writeToStream : List Text → Task Unit
  | [] => return ()
  | piece :: pieces => do
    orIoError "Failed to write" (← remote (.writeAll piece))
    writeToStream pieces

def killRequest (instanceId : String) : InstanceDescription :=
  { instanceId := some ⟨instanceId⟩,
    killInstanceRequest := some { killReason := KillReason.killed.toI32, timestampMs := none } }

/-- `on_close`: the result it gets is only logged. -/
def onClose (instanceId : String) : Task Unit := do
  match ← remote (.tryUpdateInstanceDescription (killRequest instanceId)) with
  | .error _ => throw (.ioError "Failed to kill instance")
  | .ok _ => return ()

/-- The inner `async` block of the spawned task; `on_open` only logs. -/
def proxyTraffic (request : Request) : Task Unit := do
  writeToStream request.pieces
  orIoError "Failed while sending data to/from server" (← remote .copyBidirectional)

/-- The spawned task: whatever became of the traffic, the connection is closed. -/
def spawnedTask (instance_ : ChromeWarmpoolProxyConfig.HttpProxyInstance) :
    Program Remote.Reply Unit := do
  let _ ← (proxyTraffic instance_.request).run
  let _ ← (onClose instance_.instanceId).run
  return ()

/-- `start_http_proxy_connection` for the bytes a client sends, followed by the task it spawns. -/
def startHttpProxyConnection (config : ChromeWarmpoolProxyConfig) (client : List UInt8) :
    Task Unit := do
  let (data, _) ← readUntilEmptyLine [] client
  let request ← Request.new data
  let instance_ ← config.newConnection request
  ExceptT.lift (spawnedTask instance_)

end WayPoint.Gateway
