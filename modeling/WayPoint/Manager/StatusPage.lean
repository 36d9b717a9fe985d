import Mathlib.Data.List.Sort
import WayPoint.Manager.Handlers

/-! The pages about the instances (status_page.rs, and `create_status_page` of service.rs), as the data
their templates are given. -/
namespace WayPoint.Manager

/-- What ends the task that makes a page. -/
inductive Panic where
  | subtractWithOverflow
  | notCharBoundary
  | unwrapNone
  deriving DecidableEq, Repr

inductive PageError where
  | status (e : Status)
  | panic (p : Panic)
  deriving DecidableEq, Repr

/-- `current - event` on u64. -/
abbrev Subtraction := UInt64 → UInt64 → Except Panic UInt64

/-- The release build. -/
def Subtraction.wrapping : Subtraction := fun current event => .ok (current - event)

/-- The debug build. -/
def Subtraction.checked : Subtraction := fun current event =>
  if event ≤ current then .ok (current - event) else .error .subtractWithOverflow

structure InstanceIdWithUrl where
  label : String
  url : Option String
  deriving DecidableEq, Repr

/-- `&s[..offset]`, in bytes. -/
def sliceTo (s : String) (offset : Nat) : Except Panic String :=
  if h : (⟨offset⟩ : String.Pos.Raw).IsValid s then .ok (s.sliceTo ⟨⟨offset⟩, h⟩).copy
  else .error .notCharBoundary

def maxLen : Nat := 32

def truncatedString (s : String) : Except Panic String :=
  if maxLen < s.utf8ByteSize then do return (← sliceTo s (maxLen - 3)) ++ "..." else .ok s

def instanceUrl (instanceId : InstanceId) : String := "browsers?instance_id=" ++ instanceId.instanceId

def formatInstanceId : Option InstanceId → Except Panic InstanceIdWithUrl
  | none => .ok { label := "No ID", url := none }
  | some id => do
    let label ← truncatedString id.instanceId
    return { label, url := some (instanceUrl id) }

structure Browser where
  browserId : Option InstanceId
  registeredAtMs : UInt64
  connected : Option (Option InstanceId × UInt64)
  deadAtMs : Option UInt64
  deriving DecidableEq, Repr

def Browser.state (b : Browser) : String :=
  match b.connected, b.deadAtMs with
  | some _, none => "connected"
  | _, some _ => "dead"
  | none, none => "idle"

def allBrowsers (browsers : List Browser) : Int32 := .ofNat browsers.length

def healthyBrowsers (browsers : List Browser) : Int32 :=
  .ofNat (browsers.filter (fun b => b.deadAtMs.isNone)).length

def availableBrowsers (browsers : List Browser) : Int32 :=
  .ofNat (browsers.filter (fun b => b.connected.isNone && b.deadAtMs.isNone)).length

structure Registrations where
  browserId : InstanceIdWithUrl
  timeSinceRegisteredMs : UInt64
  state : String
  deriving DecidableEq, Repr

structure Connection where
  parentId : InstanceIdWithUrl
  instanceId : InstanceIdWithUrl
  timeSinceConnectedMs : UInt64
  state : String
  deriving DecidableEq, Repr

structure WarmPoolTemplate where
  allBrowsers : Int32
  healthyBrowsers : Int32
  availableBrowsers : Int32
  connections : List Connection
  registrations : List Registrations
  deriving DecidableEq, Repr

def maxItems : Nat := 30

/-- The browsers the `filter_map` over the connected keeps. -/
def Browser.connection (b : Browser) : Option (Browser × Option InstanceId × UInt64) :=
  b.connected.map (b, ·)

def renderConnection (sub : Subtraction) (currentTimeMs : UInt64) :
    Browser × Option InstanceId × UInt64 → Except Panic Connection
  | (b, parentId, timestampMs) => do
    let parentId ← formatInstanceId parentId
    let instanceId ← formatInstanceId b.browserId
    let timeSinceConnectedMs ← sub currentTimeMs timestampMs
    return { parentId, instanceId, timeSinceConnectedMs, state := b.state }

def renderRegistration (sub : Subtraction) (currentTimeMs : UInt64) (b : Browser) :
    Except Panic Registrations := do
  let browserId ← formatInstanceId b.browserId
  let timeSinceRegisteredMs ← sub currentTimeMs b.registeredAtMs
  return { browserId, timeSinceRegisteredMs, state := b.state }

/-- `render`, up to the HTML. -/
def render (sub : Subtraction) (browsers : List Browser) (currentTimeMs : UInt64) :
    Except Panic WarmPoolTemplate := do
  let connections ← (browsers.filterMap Browser.connection).mapM (renderConnection sub currentTimeMs)
  let registrations ← browsers.mapM (renderRegistration sub currentTimeMs)
  return {
    allBrowsers := allBrowsers browsers
    healthyBrowsers := healthyBrowsers browsers
    availableBrowsers := availableBrowsers browsers
    connections :=
      (connections.mergeSort (fun a b => a.timeSinceConnectedMs ≤ b.timeSinceConnectedMs)).take maxItems
    registrations :=
      (registrations.mergeSort (fun a b => a.timeSinceRegisteredMs ≤ b.timeSinceRegisteredMs)).take maxItems }

def isChromeBrowser (d : InstanceDescription) : Bool := d.instanceType == some InstanceType.chromeBrowser.toI32

/-- The first `map` of `create_status_page`. -/
def parseBrowser (d : InstanceDescription) : Except Status Browser := do
  let created ← d.createdTimestampMs.getDM (throw (.notFound "Created timestamp not found"))
  let connected ← d.parent.mapM fun relationship => do
    let timestamp ← relationship.timestampMs.getDM
      (throw (.notFound "Timestamp not found on relationship"))
    return (relationship.instanceId, timestamp.timestampMs)
  let deadAtMs ← d.killInstanceRequest.mapM fun killInstanceRequest => do
    let timestamp ← killInstanceRequest.timestampMs.getDM
      (throw (.notFound "Timestamp not found on kill instance request"))
    return timestamp.timestampMs
  return { browserId := d.instanceId, registeredAtMs := created.timestampMs, connected, deadAtMs }

/-- The browsers of a snapshot, or the error of the first that cannot be shown. -/
def parseBrowsers (instanceDescriptions : List InstanceDescription) : Except Status (List Browser) :=
  (instanceDescriptions.filter isChromeBrowser).mapM parseBrowser

/-- The clock is read once the browsers have been parsed. -/
def createStatusPage (sub : Subtraction) (instanceDescriptions : List InstanceDescription)
    (now : TimestampMs) : Except PageError WarmPoolTemplate := do
  let browsers ← (parseBrowsers instanceDescriptions).mapError .status
  (render sub browsers now.timestampMs).mapError .panic

/-- What the page of one instance takes from chrono and from `{:?}`. -/
structure Formats where
  /-- `from_timestamp_millis`, written as `%Y-%m-%d %H:%M:%S`. -/
  dateTime : Int64 → Option String
  systemMetrics : SystemMetrics → String
  instanceDescription : InstanceDescription → String

def KillReason.tryFrom (value : Int32) : Option KillReason :=
  [.defaultKillReason, .killed, .timeout, .healthCheckFailed, .parentDead].find?
    (fun reason => reason.toI32 == value)

def KillReason.name : KillReason → String
  | .defaultKillReason => "DefaultKillReason"
  | .killed => "Killed"
  | .timeout => "Timeout"
  | .healthCheckFailed => "HealthCheckFailed"
  | .parentDead => "ParentDead"

def formatTimestampMs (formats : Formats) : Option TimestampMs → Except Panic String
  | none => .ok "No timestamp"
  | some t => (formats.dateTime t.timestampMs.toInt64).getDM (throw .unwrapNone)

structure SingleInstancePageTemplate where
  instanceId : InstanceIdWithUrl
  createdTimestampMs : String
  stateInfo : String
  parent : InstanceIdWithUrl
  debugInfo : String
  services : List String
  systemMetrics : String
  children : List InstanceIdWithUrl
  deriving DecidableEq, Repr

def formatServices (services : Services) : List String :=
  [("Chrome debug", services.chromeDebugPortService), ("Tzafonwright", services.tzafonwrightService)].filterMap
    (fun entry => entry.2.map (fun service => entry.1 ++ ": " ++ service))

def formatKill (formats : Formats) (killInstanceRequest : KillInstanceRequest) : Except Panic String := do
  let killReason := (KillReason.tryFrom killInstanceRequest.killReason).getD .defaultKillReason
  let killedAt ← formatTimestampMs formats killInstanceRequest.timestampMs
  return "Was killed for " ++ killReason.name ++ " at " ++ killedAt

def SingleInstancePageTemplate.render (formats : Formats) (d : InstanceDescription) :
    Except Panic SingleInstancePageTemplate := do
  let instanceId ← formatInstanceId d.instanceId
  let createdTimestampMs ← formatTimestampMs formats d.createdTimestampMs
  let parent ← d.parent.elim (.ok { label := "No parent", url := none })
    (fun parent => formatInstanceId parent.instanceId)
  let children ← d.childList.mapM (fun child => formatInstanceId child.instanceId)
  let stateInfo ← d.killInstanceRequest.elim (.ok "Is alive") (formatKill formats)
  return {
    instanceId, createdTimestampMs, stateInfo, parent, children
    debugInfo := formats.instanceDescription d
    services := d.services.elim [] formatServices
    systemMetrics := d.systemMetrics.elim "No system metrics" formats.systemMetrics }

end WayPoint.Manager
