import Mathlib.Data.Stream.Init
import WayPoint.Manager.Messages

/-! Server-stamped parts of a description (traits.rs). The wall clock is the stream of its
successive readings, so one locked section may see any sequence of times. -/
namespace WayPoint.Manager

/-- Successive results of `get_timestamp_ms()`; nothing orders them unless a theorem says so. -/
abbrev Clock := Stream' TimestampMs

def getTimestampMs : StateM Clock TimestampMs :=
  fun clock => (clock.head, clock.tail)

class SetTimestamp (T : Type) where
  setTimestamp : TimestampMs → T → T

class AddToInstanceDescription (T : Type) where
  addToInstanceDescription : T → InstanceDescription → InstanceDescription

open SetTimestamp AddToInstanceDescription

class HasInstanceId (T : Type) where
  getInstanceId : T → Except Status InstanceId

export HasInstanceId (getInstanceId)

def instanceIdRequired : Status := .invalidArgument "Instance ID is required"

instance : HasInstanceId (Option InstanceId) where
  getInstanceId
    | some id => .ok id
    | none => .error instanceIdRequired

instance : HasInstanceId InstanceId where
  getInstanceId id := .ok id

/-- `update_instance_description`: an absent value neither writes nor reads the clock. -/
def updateInstanceDescription {T : Type} [SetTimestamp T] [AddToInstanceDescription T]
    (d : InstanceDescription) (value : Option T) : StateM Clock InstanceDescription :=
  match value with
  | none => pure d
  | some v => do
    let now ← getTimestampMs
    return addToInstanceDescription (setTimestamp now v) d

instance : SetTimestamp Relationship where
  setTimestamp now r := { r with timestampMs := some now }
instance : AddToInstanceDescription Relationship where
  addToInstanceDescription r d := { d with parent := some r }

/-- One reading stamps every child of the message. -/
instance : SetTimestamp Children where
  setTimestamp now c := { c with children := c.children.map (setTimestamp now) }
instance : AddToInstanceDescription Children where
  addToInstanceDescription c d := { d with children := some ⟨d.childList ++ c.children⟩ }

instance : SetTimestamp HealthCheck where
  setTimestamp now h := { h with timestampMs := some now }
instance : AddToInstanceDescription HealthCheck where
  addToInstanceDescription h d := { d with healthCheck := some h }

instance : SetTimestamp ProxyMetrics where
  setTimestamp now m := { m with timestampMs := some now }
instance : AddToInstanceDescription ProxyMetrics where
  addToInstanceDescription m d := { d with proxyMetrics := some m }

instance : SetTimestamp SystemMetrics where
  setTimestamp now m := { m with timestampMs := some now }
instance : AddToInstanceDescription SystemMetrics where
  addToInstanceDescription m d := { d with systemMetrics := some m }

instance : SetTimestamp LlmMetrics where
  setTimestamp now m := { m with timestampMs := some now }
instance : AddToInstanceDescription LlmMetrics where
  addToInstanceDescription m d := { d with llmMetrics := some m }

instance : SetTimestamp GpuMetrics where
  setTimestamp now m := { m with timestampMs := some now }
instance : AddToInstanceDescription GpuMetrics where
  addToInstanceDescription m d := { d with gpuMetrics := some m }

instance : SetTimestamp KillInstanceRequest where
  setTimestamp now k := { k with timestampMs := some now }
instance : AddToInstanceDescription KillInstanceRequest where
  addToInstanceDescription k d := { d with killInstanceRequest := some k }

instance : SetTimestamp Services where
  setTimestamp now s := { s with timestampMs := some now }
instance : AddToInstanceDescription Services where
  addToInstanceDescription s d := { d with services := some s }

/-- The readings left after a value that may be absent was stamped. -/
def Clock.after {T : Type} (clock : Clock) (value : Option T) : Clock :=
  if value.isSome then clock.tail else clock

/-- What a stamped optional field holds afterwards. -/
def stampInto {T : Type} [SetTimestamp T] (clock : Clock) (old value : Option T) : Option T :=
  match value with
  | none => old
  | some v => some (setTimestamp clock.head v)

/-- A clock from which some readings have been taken. -/
def Later (clock later : Clock) : Prop := ∃ n, later = clock.drop n

theorem Later.refl (clock : Clock) : Later clock clock := ⟨0, rfl⟩

theorem Later.trans {a b c : Clock} (h : Later a b) (h' : Later b c) : Later a c := by
  obtain ⟨m, rfl⟩ := h
  obtain ⟨n, rfl⟩ := h'
  exact ⟨m + n, by rw [Stream'.drop_drop]⟩

theorem Later.tail (clock : Clock) : Later clock clock.tail := ⟨1, rfl⟩

theorem Later.head_mem {clock later : Clock} (h : Later clock later) : later.head ∈ clock := by
  obtain ⟨n, rfl⟩ := h
  exact ⟨n, by simp⟩

theorem Later.mem {clock later : Clock} (h : Later clock later) {t : TimestampMs} (ht : t ∈ later) :
    t ∈ clock := by
  obtain ⟨n, rfl⟩ := h
  obtain ⟨m, hm⟩ := ht
  exact ⟨n + m, by rw [hm, Stream'.get_drop]⟩

theorem Later.after {T : Type} (clock : Clock) (value : Option T) :
    Later clock (clock.after value) := by
  cases value with
  | none => exact .refl clock
  | some v => exact .tail clock

/-- An optional field keeps its value, or holds the request's stamped with a clock reading. -/
def Replaced {T : Type} [SetTimestamp T] (clock : Clock) (value old new : Option T) : Prop :=
  match value with
  | none => new = old
  | some v => ∃ t ∈ clock, new = some (setTimestamp t v)

theorem Replaced.mem {T : Type} [SetTimestamp T] {clock : Clock} {value old new : Option T}
    (h : Replaced clock value old new) {a : T} (ha : a ∈ new) :
    a ∈ old ∨ ∃ v ∈ value, ∃ t ∈ clock, a = setTimestamp t v := by
  cases value with
  | none =>
    rw [show new = old from h] at ha
    exact Or.inl ha
  | some v =>
    obtain ⟨t, ht, he⟩ := h
    rw [he] at ha
    exact Or.inr ⟨v, rfl, t, ht, (Option.some.inj ha).symm⟩

/-- What holds of stamped values keeps holding of the field. -/
theorem Replaced.holds {T : Type} [SetTimestamp T] {clock : Clock} {value old new : Option T}
    {P : T → Prop} (hP : ∀ t v, P (setTimestamp t v)) (h : Replaced clock value old new)
    (hold : ∀ a ∈ old, P a) : ∀ a ∈ new, P a := by
  intro a ha
  rcases h.mem ha with ha | ⟨v, _, t, _, rfl⟩
  · exact hold a ha
  · exact hP t v

theorem Later.replaced {T : Type} [SetTimestamp T] {clock later : Clock} (h : Later clock later)
    (value old : Option T) : Replaced clock value old (stampInto later old value) := by
  cases value with
  | none => rfl
  | some v => exact ⟨later.head, h.head_mem, rfl⟩

theorem Later.replaced_mono {T : Type} [SetTimestamp T] {clock later : Clock}
    (h : Later clock later) {value old new : Option T} (hr : Replaced later value old new) :
    Replaced clock value old new := by
  cases value with
  | none => exact hr
  | some v =>
    obtain ⟨t, ht, he⟩ := hr
    exact ⟨t, h.mem ht, he⟩

end WayPoint.Manager
