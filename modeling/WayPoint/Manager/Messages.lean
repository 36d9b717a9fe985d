import Mathlib.Data.Finmap

/-! The messages of instance_manager.proto as prost generates them: enumerations are open
i32 fields, message fields are optional, and a default value has every field unset. -/
namespace WayPoint.Manager

structure TimestampMs where
  timestampMs : UInt64
  deriving DecidableEq, Repr

structure InstanceId where
  instanceId : String
  deriving DecidableEq, Repr

inductive InstanceType where
  | defaultInstanceType
  | chromeBrowser
  | virtualMachine
  | warmpoolChromeProxy
  | fakeInstance
  | instanceManager
  | vllm
  | browserBackend
  | agent
  deriving DecidableEq, Repr

inductive KillReason where
  | defaultKillReason
  | killed
  | timeout
  | healthCheckFailed
  | parentDead
  deriving DecidableEq, Repr

/-- The field number, as in `InstanceType::ChromeBrowser as i32`. -/
def InstanceType.toI32 : InstanceType → Int32
  | .defaultInstanceType => 0
  | .chromeBrowser => 1
  | .virtualMachine => 2
  | .warmpoolChromeProxy => 3
  | .fakeInstance => 4
  | .instanceManager => 5
  | .vllm => 6
  | .browserBackend => 7
  | .agent => 8

def KillReason.toI32 : KillReason → Int32
  | .defaultKillReason => 0
  | .killed => 1
  | .timeout => 2
  | .healthCheckFailed => 3
  | .parentDead => 4

/-- `TryFrom<i32>`: any number outside the enumeration is rejected. -/
def InstanceType.tryFrom (value : Int32) : Option InstanceType :=
  [.defaultInstanceType, .chromeBrowser, .virtualMachine, .warmpoolChromeProxy, .fakeInstance,
    .instanceManager, .vllm, .browserBackend, .agent].find? (fun t => t.toI32 == value)

@[simp] theorem InstanceType.tryFrom_toI32 (t : InstanceType) : tryFrom t.toI32 = some t := by
  cases t <;> decide

theorem InstanceType.tryFrom_eq_some {value : Int32} {t : InstanceType}
    (h : tryFrom value = some t) : value = t.toI32 := by
  have := List.find?_some h
  exact (beq_iff_eq.mp this).symm

theorem KillReason.toI32_injective : Function.Injective KillReason.toI32 := by
  intro a b h
  cases a <;> cases b <;> first | rfl | exact absurd h (by decide)

structure HealthCheck where
  timestampMs : Option TimestampMs := none
  deriving DecidableEq, Repr

structure SystemMetrics where
  timestampMs : Option TimestampMs := none
  usedMemoryBytes : UInt64 := 0
  totalMemoryBytes : UInt64 := 0
  deriving DecidableEq, Repr

structure ProxyMetrics where
  timestampMs : Option TimestampMs := none
  activeConnections : UInt64 := 0
  numConnections : UInt64 := 0
  clientToServerBytes : UInt64 := 0
  serverToClientBytes : UInt64 := 0
  deriving DecidableEq, Repr

structure LlmMetrics where
  timestampMs : Option TimestampMs := none
  numRequests : UInt64 := 0
  tokensReceived : UInt64 := 0
  tokensSent : UInt64 := 0
  deriving DecidableEq, Repr

/-- The f32 `utilization` is stored and sent back, never computed with: its bit pattern. -/
structure GpuMetricData where
  usedMemory : UInt64 := 0
  totalMemory : UInt64 := 0
  utilization : UInt32 := 0
  deriving DecidableEq, Repr

structure GpuMetrics where
  timestampMs : Option TimestampMs := none
  gpuMetrics : List GpuMetricData := []
  deriving DecidableEq, Repr

structure KillInstanceRequest where
  timestampMs : Option TimestampMs := none
  killReason : Int32 := 0
  deriving DecidableEq, Repr

structure Relationship where
  timestampMs : Option TimestampMs := none
  instanceId : Option InstanceId := none
  deriving DecidableEq, Repr

structure Children where
  children : List Relationship := []
  deriving DecidableEq, Repr

structure Services where
  timestampMs : Option TimestampMs := none
  chromeDebugPortService : Option String := none
  tzafonwrightService : Option String := none
  deriving DecidableEq, Repr

/-- Request message and stored record in one: a client's update and the manager's entry for an
instance have this type. -/
structure InstanceDescription where
  createdTimestampMs : Option TimestampMs := none
  instanceType : Option Int32 := none
  instanceId : Option InstanceId := none
  killInstanceRequest : Option KillInstanceRequest := none
  services : Option Services := none
  children : Option Children := none
  parent : Option Relationship := none
  healthCheck : Option HealthCheck := none
  proxyMetrics : Option ProxyMetrics := none
  systemMetrics : Option SystemMetrics := none
  gpuMetrics : Option GpuMetrics := none
  llmMetrics : Option LlmMetrics := none
  deriving DecidableEq, Repr

structure AllInstancesQuery where
  instanceType : Int32 := 0
  deriving DecidableEq, Repr

/-- `children.clone().unwrap_or_default().children`: an unset list has no entries. -/
def InstanceDescription.childList (d : InstanceDescription) : List Relationship :=
  match d.children with
  | none => []
  | some c => c.children

/-- The gRPC codes the manager answers with, and the one a broken transport shows as. -/
inductive Code where
  | invalidArgument
  | notFound
  | unavailable
  deriving DecidableEq, Repr

structure Status where
  code : Code
  message : String
  deriving DecidableEq, Repr

def Status.invalidArgument (message : String) : Status := ⟨.invalidArgument, message⟩
def Status.notFound (message : String) : Status := ⟨.notFound, message⟩

end WayPoint.Manager
