import Mathlib.Data.String.Basic
import WayPoint.Foundations.Program
import WayPoint.Manager.Health
import WayPoint.Manager.Service

/-! The asynchronous handlers of service.rs as programs over mutex-protected sections. Between
two sections the lock is free, so other handlers may run there. -/
namespace WayPoint.Manager
open Foundations

/-- What happens between taking and releasing the lock, and reading the clock outside it. -/
inductive Section where
  | now
  | insertBlank (instanceId : InstanceId) (instanceType : Option Int32)
  | apply (request : InstanceDescription)
  | remove (key : String)
  | get (instanceId : InstanceId)
  | getAll (query : AllInstancesQuery)
  | getUnhealth (current : TimestampMs)
  deriving DecidableEq

abbrev Section.Reply : Section → Type
  | .now => TimestampMs
  | .insertBlank _ _ => Bool
  | .apply _ => Except Status Bool
  | .remove _ => Unit
  | .get _ => Except Status InstanceDescription
  | .getAll _ => List InstanceId
  | .getUnhealth _ => List InstanceDescription

/-- Entries in the order the map's iterator yields them. -/
abbrev Entries := List (Sigma fun _ : String => InstanceDescription)

/-- The entry a registration starts from, before its own fields are applied. -/
def blankDescription (instanceId : InstanceId) (instanceType : Option Int32) (now : TimestampMs) :
    InstanceDescription :=
  { instanceId := some instanceId, createdTimestampMs := some now, instanceType }

/-- The `Entry::Vacant` block of `insert_new_instance_description`. -/
def insertBlank (instanceId : InstanceId) (instanceType : Option Int32) (s : InnerService)
    (clock : Clock) : Bool × InnerService :=
  if (s.lookup instanceId.instanceId).isSome then (false, s)
  else (true, s.insert instanceId.instanceId
    (blankDescription instanceId instanceType (getTimestampMs clock).1))

def getInstanceDescription (instanceId : InstanceId) (s : InnerService) :
    Except Status InstanceDescription :=
  match s.lookup instanceId.instanceId with
  | none => .error (.notFound "Instance not found")
  | some d => .ok d

/-- The filters and the map of `get_all_instances` over the map's values. -/
def getAllInstances (query : AllInstancesQuery) (entries : Entries) : List InstanceId :=
  ((((entries.map Sigma.snd).filter
    (fun d => d.instanceType.getD 0 == query.instanceType)).filter
    (fun d => d.healthCheck.isSome)).filter
    (fun d => d.killInstanceRequest.isNone)).map
    (fun d => d.instanceId.getD ⟨"instance_id_missing"⟩)

/-- The kill order `get_unhealth_instances` builds for one unhealthy instance. -/
def killOrder (instanceId : Option InstanceId) (reason : KillReason) (current : TimestampMs) :
    InstanceDescription :=
  { instanceId, killInstanceRequest := some { killReason := reason.toI32, timestampMs := some current } }

def getUnhealthInstancesBy (age : AgeTest) (current : TimestampMs) (entries : Entries) :
    List InstanceDescription :=
  (entries.filter (fun e => e.2.killInstanceRequest.isNone)).filterMap
    (fun e => (unhealthInstanceBy age e.2 current).map
      (fun reason => killOrder e.2.instanceId reason current))

def getUnhealthInstances : TimestampMs → Entries → List InstanceDescription :=
  getUnhealthInstancesBy .wrapping

/-- One section on the whole map, given its clock readings and the map's iteration order. -/
def Section.runBy (age : AgeTest) (clock : Clock) (order : Entries) :
    (c : Section) → InnerService → c.Reply × InnerService
  | .now, s => ((getTimestampMs clock).1, s)
  | .insertBlank instanceId instanceType, s => Manager.insertBlank instanceId instanceType s clock
  | .apply request, s =>
    let (result, s', _) := (applyToInstanceDescription request).exec s clock
    (result, s')
  | .remove key, s => ((), s.erase key)
  | .get instanceId, s => (getInstanceDescription instanceId s, s)
  | .getAll query, s => (getAllInstances query order, s)
  | .getUnhealth current, s => (getUnhealthInstancesBy age current order, s)

/-- A section of the release build. -/
def Section.run : Clock → Entries → (c : Section) → InnerService → c.Reply × InnerService :=
  Section.runBy .wrapping

/-- Any clock readings and any iteration order of the current map may occur. -/
def serves : Server Section.Reply InnerService := fun c s r s' =>
  ∃ clock order, FiniteMap.Enumerates order s ∧ c.run clock order s = (r, s')

abbrev Handler := Program Section.Reply

abbrev locked (c : Section) : Handler c.Reply := Program.perform c

open Program

def insertNewInstanceDescription (request : InstanceDescription) : Handler (Except Status Bool) :=
  match request.instanceId, request.instanceType, request.createdTimestampMs with
  | some instanceId, some instanceType, none =>
    if (InstanceType.tryFrom instanceType).isNone then
      return .error (.invalidArgument "Invalid instance type")
    else do
      if ← locked (.insertBlank instanceId (some instanceType)) then
        let updateResult ← locked (.apply { request with instanceType := none })
        match updateResult with
        | .ok true => return updateResult
        | _ =>
          locked (.remove instanceId.instanceId)
          return updateResult
      else
        return .ok false
  | _, _, _ => return .error invalidRequest

/-- The fields `try_add_instance` accepts are its identity, services and links. -/
def addShape (d : InstanceDescription) : Bool :=
  d.instanceId.isSome && d.createdTimestampMs.isNone && d.instanceType.isSome &&
    d.healthCheck.isNone && d.proxyMetrics.isNone && d.systemMetrics.isNone &&
    d.gpuMetrics.isNone && d.llmMetrics.isNone && d.killInstanceRequest.isNone

def updateShape (d : InstanceDescription) : Bool :=
  d.instanceId.isSome && d.createdTimestampMs.isNone && d.instanceType.isNone &&
    d.proxyMetrics.isNone && d.systemMetrics.isNone && d.gpuMetrics.isNone && d.llmMetrics.isNone

def postShape (d : InstanceDescription) : Bool :=
  d.instanceId.isSome && d.createdTimestampMs.isNone && d.instanceType.isNone &&
    d.children.isNone && d.parent.isNone && d.healthCheck.isNone &&
    d.killInstanceRequest.isNone && d.services.isNone

def tryAddInstance (request : InstanceDescription) : Handler (Except Status Bool) :=
  if addShape request then insertNewInstanceDescription request else return .error invalidRequest

def tryUpdateInstanceDescription (request : InstanceDescription) : Handler (Except Status Bool) :=
  if updateShape request then locked (.apply request) else return .error invalidRequest

def postInstanceDescription (request : InstanceDescription) : Handler (Except Status Bool) :=
  if postShape request then locked (.apply request) else return .error invalidRequest

/-- The loop of `kill_unhealth_instances`; every outcome is only logged. -/
def killAll : List InstanceDescription → Handler Unit
  | [] => return ()
  | instance_ :: rest => do
    let _ ← locked (.apply instance_)
    killAll rest

/-- One pass whose clock was read as `current`. -/
def killUnhealthInstancesAt (current : TimestampMs) : Handler Unit := do
  let unhealthInstances ← locked (.getUnhealth current)
  killAll unhealthInstances

/-- `get_unhealth_instances` reads the clock before it waits for the lock. -/
def killUnhealthInstances : Handler Unit := do
  let current ← locked .now
  killUnhealthInstancesAt current

/-- The requests clients send, and the single kills of the kill loop. -/
inductive Rpc where
  | tryAddInstance (request : InstanceDescription)
  | tryUpdateInstanceDescription (request : InstanceDescription)
  | postInstanceDescription (request : InstanceDescription)
  | getInstance (instanceId : InstanceId)
  | getAllInstances (query : AllInstancesQuery)
  | killUnhealth (instanceId : InstanceId) (reason : KillReason) (current : TimestampMs)
  deriving DecidableEq

inductive Answer where
  | bool (result : Except Status Bool)
  | description (result : Except Status InstanceDescription)
  | instanceIds (ids : List InstanceId)
  deriving DecidableEq

def Rpc.handler : Rpc → Handler Answer
  | .tryAddInstance request => Answer.bool <$> Manager.tryAddInstance request
  | .tryUpdateInstanceDescription request =>
    Answer.bool <$> Manager.tryUpdateInstanceDescription request
  | .postInstanceDescription request => Answer.bool <$> Manager.postInstanceDescription request
  | .getInstance instanceId => Answer.description <$> locked (.get instanceId)
  | .getAllInstances query => Answer.instanceIds <$> locked (.getAll query)
  | .killUnhealth instanceId reason current =>
    Answer.bool <$> locked (.apply (killOrder (some instanceId) reason current))

/-- Stores left by some finite sequence of whole requests and kills, each run to completion. -/
inductive Reachable : InnerService → Prop where
  | empty : Reachable ∅
  | rpc {s s' : InnerService} (h : Reachable s) (request : Rpc) (answer : Answer)
      (run : Runs serves s request.handler answer s') : Reachable s'

/-- One section on given clock readings, with the map listed by key. -/
def Section.execute (clock : Clock) (c : Section) (s : InnerService) : c.Reply × InnerService :=
  c.run clock (FiniteMap.listing s) s

theorem serves_execute (clock : Clock) (c : Section) (s : InnerService) :
    serves c s (c.execute clock s).1 (c.execute clock s).2 :=
  ⟨clock, FiniteMap.listing s, FiniteMap.enumerates_listing s, rfl⟩

def Rpc.execute (clock : Clock) (rpc : Rpc) (s : InnerService) : Answer × InnerService :=
  rpc.handler.eval (Section.execute clock) s

/-- The store after requests that each arrive at one time, the earliest first. -/
def replay (s : InnerService) : List (TimestampMs × Rpc) → InnerService
  | [] => s
  | (time, rpc) :: rest => replay (rpc.execute (Stream'.const time) s).2 rest

theorem Reachable.replay {s : InnerService} (h : Reachable s) (rpcs : List (TimestampMs × Rpc)) :
    Reachable (Manager.replay s rpcs) := by
  induction rpcs generalizing s with
  | nil => exact h
  | cons e rest ih =>
    exact ih (h.rpc e.2 _ (runs_eval (serves_execute (Stream'.const e.1)) e.2.handler s))

end WayPoint.Manager
