import WayPoint.Foundations.FiniteMap
import WayPoint.Manager.Traits

/-! The mutex-protected bodies of service.rs. A section runs on the whole map with its own clock
readings and leaves the map it wrote, also when it answers with an error. -/
namespace WayPoint.Manager
open Foundations

/-- `HashMap<String, InstanceDescription>`, the content of the mutex. -/
abbrev InnerService := FiniteMap String InstanceDescription

/-- Code that holds the lock: it may fail, and what it wrote before failing stays written. -/
abbrev Locked := ExceptT Status (StateM (InnerService × Clock))

def Locked.exec {α : Type} (m : Locked α) (s : InnerService) (clock : Clock) :
    Except Status α × InnerService × Clock :=
  m.run.run (s, clock)

def readStore : Locked InnerService := do return (← get).1

/-- `get_mut(key).ok_or(missing)?` followed by writes to the description found. -/
def modifyInstance (key : String) (missing : Status)
    (write : InstanceDescription → StateM Clock InstanceDescription) : Locked Unit := do
  let (s, clock) ← get
  match s.lookup key with
  | none => throw missing
  | some d =>
    let (d', clock') := write d clock
    set (s.insert key d', clock')

def validateRelationship (parent child : InstanceDescription) : Except Status Bool :=
  if parent.instanceId = child.instanceId then
    .error (.invalidArgument "Parent and child cannot be the same instance")
  else if parent.killInstanceRequest.isSome || child.parent.isSome then
    .ok false
  else
    .ok true

/-- The block under "Adding a parent". -/
def validateParent (s : InnerService) (d : InstanceDescription) :
    Option Relationship → Except Status Bool
  | none => .ok true
  | some relationship => do
    let parentInstanceId ← getInstanceId relationship.instanceId
    match s.lookup parentInstanceId.instanceId with
    | none => .error (.notFound "Parent instance not found")
    | some parent => validateRelationship parent d

/-- The loop under "Adding children": the first child refused ends it. -/
def validateChildren (s : InnerService) (d : InstanceDescription) :
    List Relationship → Except Status Bool
  | [] => .ok true
  | child :: rest => do
    let childInstanceId ← getInstanceId child.instanceId
    match s.lookup childInstanceId.instanceId with
    | none => .error (.notFound "Child instance not found")
    | some c => if ← validateRelationship d c then validateChildren s d rest else .ok false

/-- The nine `update_instance_description` calls on the instance itself. -/
def updateFields (request d : InstanceDescription) : StateM Clock InstanceDescription := do
  let d ← updateInstanceDescription d request.services
  let d ← updateInstanceDescription d request.healthCheck
  let d ← updateInstanceDescription d request.parent
  let d ← updateInstanceDescription d request.children
  let d ← updateInstanceDescription d request.killInstanceRequest
  let d ← updateInstanceDescription d request.proxyMetrics
  let d ← updateInstanceDescription d request.systemMetrics
  let d ← updateInstanceDescription d request.gpuMetrics
  updateInstanceDescription d request.llmMetrics

/-- The parent links written into the children a request adds. -/
def linkChildren (instanceId : InstanceId) : List Relationship → Locked Unit
  | [] => return ()
  | child :: rest => do
    let childInstanceId ← getInstanceId child.instanceId
    modifyInstance childInstanceId.instanceId (.notFound "Child instance not found")
      (updateInstanceDescription · (some { instanceId := some instanceId : Relationship }))
    linkChildren instanceId rest

/-- The child entry written into the parent a request adds. -/
def linkParent (instanceId : InstanceId) : Option Relationship → Locked Unit
  | none => return ()
  | some parent => do
    let parentInstanceId ← getInstanceId parent.instanceId
    modifyInstance parentInstanceId.instanceId (.notFound "Parent instance not found")
      (updateInstanceDescription · (some { children := [{ instanceId := some instanceId }] : Children }))

/-- The kill request the cascade writes: its reason is fixed, its time is the server's. -/
def killOrphan (d : InstanceDescription) : StateM Clock InstanceDescription :=
  updateInstanceDescription d
    (some { killReason := KillReason.parentDead.toI32, timestampMs := none : KillInstanceRequest })

theorem killOrphan_run (d : InstanceDescription) (clock : Clock) :
    killOrphan d clock =
      ({ d with killInstanceRequest := some ⟨some clock.head, KillReason.parentDead.toI32⟩ },
        clock.tail) := rfl

/-- Child entries the kill cascade may still push: those of the instances alive. -/
def liveChildren (s : InnerService) : Nat :=
  FiniteMap.weight (fun d => if d.killInstanceRequest.isSome then 0 else d.childList.length) s

theorem liveChildren_killOrphan {s : InnerService} {key : String} {d : InstanceDescription}
    (hd : s.lookup key = some d) (hk : d.killInstanceRequest.isSome = false) (clock : Clock) :
    liveChildren (s.insert key (killOrphan d clock).1) + d.childList.length = liveChildren s := by
  have h := FiniteMap.weight_insert_present
    (fun d => if d.killInstanceRequest.isSome then 0 else d.childList.length) hd
    (killOrphan d clock).1
  simpa [hk, killOrphan_run, liveChildren] using h

/-- The `while let Some(child) = children.pop()` loop. The vector's end is the list's head. -/
def killChildren (children : List Relationship) (s : InnerService) (clock : Clock) :
    Except Status Unit × InnerService × Clock :=
  match children with
  | [] => (.ok (), s, clock)
  | child :: rest =>
    match getInstanceId child.instanceId with
    | .error e => (.error e, s, clock)
    | .ok childInstanceId =>
      match _hd : s.lookup childInstanceId.instanceId with
      | none => killChildren rest s clock
      | some d =>
        if _hk : d.killInstanceRequest.isSome then
          killChildren rest s clock
        else
          killChildren (d.childList.reverse ++ rest)
            (s.insert childInstanceId.instanceId (killOrphan d clock).1) (killOrphan d clock).2
termination_by liveChildren s + children.length
decreasing_by
  · simp
  · simp
  · have := liveChildren_killOrphan _hd (by simpa using _hk) clock
    simp only [List.length_append, List.length_reverse, List.length_cons]
    omega

section killChildren
variable {child : Relationship} {rest : List Relationship} {s : InnerService} {clock : Clock}
  {id : InstanceId} {d : InstanceDescription}

@[simp] theorem killChildren_nil : killChildren [] s clock = (.ok (), s, clock) := by
  rw [killChildren]

theorem killChildren_unnamed {e : Status} (h : getInstanceId child.instanceId = .error e) :
    killChildren (child :: rest) s clock = (.error e, s, clock) := by
  rw [killChildren]
  simp only [h]

theorem killChildren_unregistered (h : getInstanceId child.instanceId = .ok id)
    (hd : s.lookup id.instanceId = none) :
    killChildren (child :: rest) s clock = killChildren rest s clock := by
  rw [killChildren]
  simp only [h]
  split
  · rfl
  · next he => cases hd.symm.trans he

theorem killChildren_dead (h : getInstanceId child.instanceId = .ok id)
    (hd : s.lookup id.instanceId = some d) (hk : d.killInstanceRequest.isSome) :
    killChildren (child :: rest) s clock = killChildren rest s clock := by
  rw [killChildren]
  simp only [h]
  split
  · next he => cases hd.symm.trans he
  · next he =>
    cases hd.symm.trans he
    rw [dif_pos hk]

theorem killChildren_alive (h : getInstanceId child.instanceId = .ok id)
    (hd : s.lookup id.instanceId = some d) (hk : ¬ d.killInstanceRequest.isSome) :
    killChildren (child :: rest) s clock = killChildren (d.childList.reverse ++ rest)
      (s.insert id.instanceId (killOrphan d clock).1) (killOrphan d clock).2 := by
  rw [killChildren]
  simp only [h]
  split
  · next he => cases hd.symm.trans he
  · next he =>
    cases hd.symm.trans he
    rw [dif_neg hk]

end killChildren

/-- The part that starts when the instance itself is killed, in this request or before. -/
def killDescendants (instanceId : InstanceId) : Locked Unit := do
  let (s, clock) ← get
  match s.lookup instanceId.instanceId with
  | none => throw (.notFound "Instance not found")
  | some d =>
    if d.killInstanceRequest.isSome then
      let (result, s', clock') := killChildren d.childList.reverse s clock
      set (s', clock')
      liftM result

/-- Everything `apply_to_instance_description` does once the request has been validated. -/
def commitUpdate (instanceId : InstanceId) (request : InstanceDescription) : Locked Unit := do
  modifyInstance instanceId.instanceId (.notFound "Instance not found") (updateFields request)
  linkChildren instanceId request.childList
  linkParent instanceId request.parent
  killDescendants instanceId

def invalidRequest : Status := .invalidArgument "Invalid request"

/-- Checks on a live instance, in the source's order: the parent first, then each child. -/
def validateLinks (s : InnerService) (d request : InstanceDescription) : Except Status Bool := do
  if ← validateParent s d request.parent then
    validateChildren s d request.childList
  else
    return false

def applyToInstanceDescription (request : InstanceDescription) : Locked Bool :=
  match request.instanceId, request.createdTimestampMs, request.instanceType with
  | some instanceId, none, none => do
    let s ← readStore
    match s.lookup instanceId.instanceId with
    | none => return false
    | some d =>
      if d.killInstanceRequest.isSome then
        return false
      else if ← validateLinks s d request then
        commitUpdate instanceId request
        return true
      else
        return false
  | _, _, _ => throw invalidRequest

section exec
variable {α β : Type} (s : InnerService) (clock : Clock)

@[simp] theorem exec_pure (a : α) : (pure a : Locked α).exec s clock = (.ok a, s, clock) := rfl

@[simp] theorem exec_throw (e : Status) :
    (throw e : Locked α).exec s clock = (.error e, s, clock) := rfl

@[simp] theorem exec_lift (r : Except Status α) :
    (liftM r : Locked α).exec s clock = (r, s, clock) := rfl

theorem exec_bind (m : Locked α) (f : α → Locked β) :
    (m >>= f).exec s clock = match m.exec s clock with
      | (.ok a, s', clock') => (f a).exec s' clock'
      | (.error e, s', clock') => (.error e, s', clock') := by
  change (match m.exec s clock with
    | (result, w) => (ExceptT.bindCont f result : StateM (InnerService × Clock) _).run w) = _
  rcases m.exec s clock with ⟨_ | a, s', clock'⟩ <;> rfl

theorem exec_bind_ok {m : Locked α} {f : α → Locked β} {s' : InnerService} {clock' : Clock}
    {a : α} (h : m.exec s clock = (.ok a, s', clock')) :
    (m >>= f).exec s clock = (f a).exec s' clock' := by
  rw [exec_bind, h]

/-- On two stores where the first part answers the same at the same clock, both fail or both go on. -/
theorem exec_bind_both {m : Locked α} {f : α → Locked β} {u : InnerService}
    (hresult : (m.exec s clock).1 = (m.exec u clock).1)
    (hclock : (m.exec s clock).2.2 = (m.exec u clock).2.2) :
    (∃ e later, (m >>= f).exec s clock = (.error e, (m.exec s clock).2.1, later) ∧
      (m >>= f).exec u clock = (.error e, (m.exec u clock).2.1, later)) ∨
    ∃ a later, (m >>= f).exec s clock = (f a).exec (m.exec s clock).2.1 later ∧
      (m >>= f).exec u clock = (f a).exec (m.exec u clock).2.1 later := by
  rw [exec_bind, exec_bind]
  rcases hs : m.exec s clock with ⟨r, s', later⟩
  rcases hu : m.exec u clock with ⟨r', u', later'⟩
  rw [hs, hu] at hresult hclock
  obtain rfl : r = r' := hresult
  obtain rfl : later = later' := hclock
  cases r with
  | error e => exact Or.inl ⟨e, later, rfl, rfl⟩
  | ok a => exact Or.inr ⟨a, later, rfl, rfl⟩

theorem exec_get_bind (f : InnerService × Clock → Locked β) :
    ((get : Locked (InnerService × Clock)) >>= f).exec s clock = (f (s, clock)).exec s clock := rfl

@[simp] theorem exec_readStore : readStore.exec s clock = (.ok s, s, clock) := rfl

theorem exec_modifyInstance {key : String} (missing : Status)
    (write : InstanceDescription → StateM Clock InstanceDescription) {d : InstanceDescription}
    (h : s.lookup key = some d) :
    (modifyInstance key missing write).exec s clock =
      (.ok (), s.insert key (write d clock).1, (write d clock).2) := by
  unfold modifyInstance
  rw [exec_get_bind]
  simp only [h]
  rfl

theorem exec_modifyInstance_missing {key : String} (missing : Status)
    (write : InstanceDescription → StateM Clock InstanceDescription) (h : s.lookup key = none) :
    (modifyInstance key missing write).exec s clock = (.error missing, s, clock) := by
  unfold modifyInstance
  rw [exec_get_bind]
  simp only [h, exec_throw]

end exec

end WayPoint.Manager
